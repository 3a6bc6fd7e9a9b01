import IguanaIR.Firmware.Mcu

/-! # Packets from and to the host

`pc.asm` of the loader: reading control packets and signal data from the OUT endpoint, and
writing packets to the IN endpoint.

A wait for a packet that is not there, and the jump to `soft_reset` that a halted endpoint
causes, leave these functions for good: the result is `none`. -/

namespace IguanaIR.Firmware

/-- Is there data to receive? -/
def checkRead (m : Mcu) : Bool := !m.out.isEmpty

def halted (m : Mcu) : Prop := m.ram loaderFlags &&& FLAG_HALTED ≠ 0

instance (m : Mcu) : Decidable (halted m) := inferInstanceAs (Decidable (_ ≠ _))

/-- The packet of the OUT endpoint, copied to `controlPkt`. -/
def readPacket (m : Mcu) : Option Mcu :=
  match m.out with
  | [] => none
  | p :: out =>
      if p = [] then none
      else some (((({ m with out := out }).write tmp1 0).write tmp2 controlPkt).writeAll controlPkt p)

/-! ### Signal data -/

/-- How the bytes of one packet end: all were asked for, the buffer is full, or the packet is
used up. -/
inductive FragEnd where
  | done
  | overflow
  | fragment
deriving DecidableEq, Repr

/-- One byte goes into the buffer, and there is one less to come. -/
def storeByte (m : Mcu) (b : Byte) : Mcu :=
  let m := m.write (m.ram bufferPtr) b
  let m := m.write bufferPtr (m.ram bufferPtr + 1)
  m.write tmp1 (m.ram tmp1 - 1)

/-- `rb_loop`: the bytes of one packet, as long as there is room and more were asked for. -/
def readLoopRb (m : Mcu) : List Byte → Mcu × FragEnd
  | [] => (m, .fragment)
  | b :: rest =>
      if m.ram bufferPtr = buffer + BUFFER_SIZE then (m, .overflow)
      else
        let m := storeByte m b
        if m.ram tmp1 = 0 then (m, .done)
        else readLoopRb (m.write tmp2 (m.ram tmp2 - 1)) rest

/-- `rb_frag`: one packet after the other. -/
def readFragments (m : Mcu) : List (List Byte) → Option (Mcu × Bool)
  | [] => none
  | p :: out =>
      if halted m ∨ p = [] then none
      else
        match readLoopRb (({ m with out := out }).write tmp2 (BitVec.ofNat 8 p.length)) p with
        | (m, .done) => some (m, true)
        | (m, .overflow) => some (m.setCtl CDATA BUFFER_SIZE, false)
        | (m, .fragment) => readFragments m out

/-- Read `n` bytes into the buffer; false if they do not fit. -/
def readBufferReal (n : Byte) (m : Mcu) : Option (Mcu × Bool) :=
  if n = 0 then some (m, true)
  else
    let m := (m.write bufferPtr buffer).write tmp1 n
    let m := m.write loaderFlags (m.ram loaderFlags ||| FLAG_BODY_BUFCLR)
    readFragments m m.out

/-- The size is specified in control packet data byte 0. -/
def readBuffer (m : Mcu) : Option (Mcu × Bool) := readBufferReal (m.ctl CDATA) m

/-! ### Control packets -/

def clearControlPkt (m : Mcu) : Mcu := m.writeAll controlPkt (List.replicate PACKET_SIZE.toNat 0)

/-- `rc_read_zero`: the first byte from address `x` on that is not zero, and its address.  The
search does not end when all of RAM is zero. -/
def skipZeros (m : Mcu) (x : Byte) : ℕ → Option Byte
  | 0 => none
  | n + 1 => if m.ram x = 0 then skipZeros m (x + 1) n else some x

/-- Receive a control packet: its code, or 0 for one that is badly formed. -/
def readControl (m : Mcu) : Option (Mcu × Byte) := do
  let m ← readPacket (clearControlPkt m)
  let x ← skipZeros m controlPkt 256
  some (m, if m.ram x = FROM_PC then m.ram (x + 1) else 0)

/-- Write the `size` bytes at `data` to the host. -/
def writePacket (size data : Byte) (m : Mcu) : Option Mcu :=
  let m := (m.write tmp1 size).write tmp2 data
  if halted m then none else some { m with sent := m.sent ++ [m.readAll data size.toNat] }

/-- Write `controlPkt` behind the packet header. -/
def writeControl (size : Byte) (m : Mcu) : Option Mcu :=
  writePacket size controlPkt (((m.setCtl 0 0).setCtl 1 0).setCtl 2 TO_PC)

end IguanaIR.Firmware
