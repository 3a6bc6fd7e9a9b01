import IguanaIR.Firmware.Instructions
import IguanaIR.Firmware.Silent

/-! # The main loop

`main_loop` of the loader with the body's loop, one round at a time, and what may happen between
two rounds: the host writes the packet of a command, or the timer runs while the interrupts are
unmasked.

`transmitCall` is the state in which the handler of `IG_DEV_SEND` or `IG_DEV_RESEND` calls
`transmit_code`, and `transmitted` the bytes that the transmit loop then reads. -/

namespace IguanaIR.Firmware

variable (others : Byte → Mcu → Option Mcu)

/-! ### The body's loop -/

namespace Mcu

/-- The next byte of the receive buffer. -/
def getByte (m : Mcu) : Mcu × Byte :=
  let a := m.ram m.readPtr
  let m := { m with readPtr := m.readPtr + 1 }
  let m := if m.readPtr = buffer + BUFFER_SIZE then { m with readPtr := buffer } else m
  ({ m with bufSize := m.bufSize - 1 }, a)

/-- `ws_ld_loop`, for `n` more bytes. -/
def wsLdLoop : ℕ → Mcu → Mcu
  | 0, m => m
  | n + 1, m => let (m, a) := m.getByte; wsLdLoop n (m.mvi tmp1 a)

/-- One packet's worth of signal data, if there is enough; the fill level is its last byte. -/
def writeSignal (m : Mcu) : Option Mcu :=
  if m.bufSize < PACKET_SIZE - 1 then some m
  else
    let m := wsLdLoop (PACKET_SIZE - 1).toNat (m.write tmp1 controlPkt)
    writePacket PACKET_SIZE controlPkt (m.mvi tmp1 m.bufSize)

end Mcu

/-- An overflow is reported, and received data is written back. -/
def bodyLoopBody (m : Mcu) : Option Mcu := do
  let m ←
    if m.rxFlags &&& RX_OVERFLOW_FLAG = 0 then some m
    else (writeControl CTL_BASE_SIZE (m.setCtl CCODE IG_DEV_OVERRECV)).map rxReset
  m.writeSignal

/-! ### The rounds -/

/-- One round of `main_loop`; a halted endpoint leaves it for `soft_reset`. -/
def mainLoop (m : Mcu) : Option Mcu :=
  if halted m then none
  else if checkRead m then mainRecv others m
  -- only call the body loop if the body has successfully initialized
  else if m.ram loaderFlags &&& FLAG_BODY_INIT ≠ 0 then some m
  else bodyLoopBody m

def Mcu.hostWrites (m : Mcu) (packets : List (List Byte)) : Mcu :=
  { m with out := m.out ++ packets }

/-- A control packet of the host. -/
def hostPacket (code : Byte) (arguments : List Byte) : List Byte :=
  [0, 0, FROM_PC, code] ++ arguments

inductive MainEvent where
  /-- The host writes a command, and the next round finds it. -/
  | command (code : Byte) (arguments : List Byte)
  | round
  | tcap (rising : Bool) (timer : BitVec 16)
  | twrap
deriving DecidableEq, Repr

def mainStep (m : Mcu) : MainEvent → Option Mcu
  | .command code arguments => mainLoop others (m.hostWrites [hostPacket code arguments])
  | .round => mainLoop others m
  | .tcap rising timer => some (if m.rxEnabled then tcapInt rising timer m else m)
  | .twrap => some (if m.rxEnabled then twrapInt m else m)

/-! ### The calls of `transmit_code` -/

/-- The bytes that `tx_loop` reads, for `n` more of them. -/
def txBytes : ℕ → Mcu → List Byte
  | 0, _ => []
  | n + 1, m =>
      m.ram (m.ram bufferPtr) :: txBytes n ((txByte m).write tmp1 ((txByte m).ram tmp1 - 1))

/-- The bytes that `transmit_code` reads. -/
def transmitted (m : Mcu) : List Byte :=
  let m := txStart m
  if m.ram tmp1 = 0 then txBytes 255 (m.write tmp1 (m.ram tmp1 - 1))
  else txBytes (m.ram tmp1).toNat m

/-- The state in which `transmit_code` is called for the next packet, and whether all of a code
fit into the buffer. -/
def transmitCall (m : Mcu) : Option (Mcu × Bool) := do
  let (m, code) ← readControl m
  let m := bodyFlags (m.write tmp1 code)
  if code = IG_DEV_SEND then readBuffer (rxDisable m)
  else if code = IG_DEV_RESEND then
    let (m, _) ← readControl m
    some (rxDisable ((m.setCtl CCODE IG_DEV_RESEND).setCtl CDATA (m.ram tmp3)), true)
  else none

/-- What comes behind the call: an ack, or the overflow packet. -/
def transmitReturn (r : Mcu × Bool) : Option Mcu :=
  let m := sendBuffer r.1
  if r.2 then ack m else writeControl (CTL_BASE_SIZE + 1) (m.setCtl CCODE IG_DEV_OVERSEND)

/-- A packet that the loader does not handle itself reaches the body's handler. -/
theorem mainRecv_enters {m m₁ : Mcu} {code : Byte} (hread : readControl m = some (m₁, code))
    (hbody : code ∉ [0, IG_DEV_GETVERSION, IG_DEV_WRITEBLOCK, IG_DEV_CHECKSUM, IG_DEV_RESET]) :
    mainRecv others m = bodyHandler others code (bodyFlags (m₁.write tmp1 code)) := by
  have hcode : (bodyFlags (m₁.write tmp1 code)).ram tmp1 = code := by
    rw [bodyFlags_ram _ (by decide) (by decide), Mcu.write_same]
  simp only [List.mem_cons, List.not_mem_nil, or_false, not_or] at hbody
  obtain ⟨h₀, h₁, h₂, h₃, h₄⟩ := hbody
  simp only [mainRecv, hread, Option.bind_eq_bind, Option.bind_some, if_neg h₀, if_neg h₁,
    if_neg h₂, if_neg h₃, if_neg h₄, bodyMain, hcode]

/-- **The handlers of `IG_DEV_SEND` and `IG_DEV_RESEND`** are their call of `transmit_code` and
what comes behind it. -/
theorem mainRecv_transmits {m : Mcu} {r : Mcu × Bool} (h : transmitCall m = some r) :
    mainRecv others m = transmitReturn r := by
  simp only [transmitCall, Option.bind_eq_bind, Option.bind_eq_some_iff] at h
  obtain ⟨⟨m₁, code⟩, hread, h⟩ := h
  by_cases hsend : code = IG_DEV_SEND
  · subst hsend
    rw [if_pos rfl] at h
    rw [mainRecv_enters others hread (by decide)]
    change sendBody _ = _
    rw [sendBody, h]
    rfl
  · rw [if_neg hsend] at h
    by_cases hresend : code = IG_DEV_RESEND
    · subst hresend
      rw [if_pos rfl, Option.bind_eq_some_iff] at h
      obtain ⟨⟨m₂, settings⟩, hsettings, h⟩ := h
      obtain rfl := Option.some.inj h
      rw [mainRecv_enters others hread (by decide)]
      change resendBody _ = _
      rw [resendBody, hsettings]
      rfl
    · rw [if_neg hresend] at h
      cases h

end IguanaIR.Firmware
