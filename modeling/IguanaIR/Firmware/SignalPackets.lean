import IguanaIR.Firmware.Interrupts

/-! # The packets of a received signal

What `write_signal` sends while captures and timer wraps come in between its instructions: seven
bytes that were put one after the other, and the fill level.  Nothing turns the receiver on or
off, and the receive buffer does not overflow, so `rx_reset` is not called. -/

namespace IguanaIR.Firmware

/-! ### Captures and wraps -/

/-- What happens while a signal is received: instructions of the body's loop, and the two
interrupts. -/
inductive SignalEvent where
  | instruction
  | loop
  | capture (rising : Bool) (timer : BitVec 16)
  | wrap
deriving DecidableEq, Repr

namespace SignalEvent

/-- The bytes of an interrupt. -/
def bytes : SignalEvent → List Byte
  | capture rising timer => captureBytes rising timer
  | wrap => [0x80]
  | _ => []

def toChip : SignalEvent → ChipEvent
  | instruction => .instruction
  | loop => .call .loop
  | capture rising timer => .interrupt .tcap (captureBytes rising timer)
  | wrap => .interrupt .twrap [0x80]

/-- The edge of a capture. -/
def edge : SignalEvent → Option Bool
  | capture rising _ => some rising
  | _ => none

end SignalEvent

def signalStep (c : Chip) (e : SignalEvent) : Option (Chip × Unit) := chipStep c e.toChip

/-- Captures alternate between pulse and space. -/
def AlternatingEdges (es : List SignalEvent) : Prop :=
  (es.filterMap SignalEvent.edge).IsChain (· ≠ ·)

/-- The receive buffer has room for what an interrupt puts. -/
def HasRoom (c : Chip) (e : SignalEvent) : Prop := c.mcu.bufSize.toNat + e.bytes.length ≤ 150

/-- The receiver is on, and nothing has come in since it was turned on. -/
structure Chip.Listens (c : Chip) : Prop where
  pc : c.pc = .idle
  receiving : ¬repeating c.mcu
  noOverflow : c.mcu.rxFlags &&& RX_OVERFLOW_FLAG = 0
  readPtr : c.mcu.readPtr = buffer
  ptr : c.mcu.ram bufferPtr = buffer
  size : c.mcu.bufSize = 0
  put : c.put = []
  got : c.got = []

/-! ### Without overflow -/

/-- Where there is room every byte is accepted, and the flags stay. -/
theorem accepted_all {x : ℕ} : ∀ (added : List Byte) {m : Mcu} {bytes : List Byte},
    Holds m x bytes → m.bufSize.toNat + added.length ≤ 150 →
      accepted added m = added ∧ (putBytes added m).rxFlags = m.rxFlags ∧
        (putBytes added m).sent = m.sent
  | [], _, _, _, _ => ⟨rfl, rfl, rfl⟩
  | b :: added, m, bytes, h, hroom => by
      rw [List.length_cons] at hroom
      have hcell : (x + m.bufSize.toNat) % 150 < 150 := Nat.mod_lt _ (by omega)
      have hnotfull : m.bufSize ≠ BUFFER_SIZE := by
        intro hfull
        have hsize : m.bufSize.toNat = 150 := congrArg BitVec.toNat hfull
        omega
      obtain ⟨ram, heq, -, -⟩ := putByte_eq hcell h.ptr hnotfull b
      have hsize : (putByte b m).bufSize.toNat = m.bufSize.toNat + 1 := by
        rw [heq]
        exact Mcu.toNat_succ (by omega)
      obtain ⟨haccept, hflags, hsent⟩ := accepted_all added (h.putByte b) (by omega)
      rw [accepted, if_neg hnotfull, haccept, putBytes, hflags, hsent, heq]
      exact ⟨rfl, rfl, rfl⟩

/-! ### The control packet -/

/-- The last `k` bytes that `get_byte` returned, besides those in `pending`, are in the control
packet. -/
def Packs (c : Chip) (k : ℕ) (pending : List Byte) : Prop :=
  ∃ front w, c.got = front ++ (w ++ pending) ∧ w.length = k ∧ Stored c.mcu controlPkt w

/-- A whole packet is in the control packet: seven bytes and the fill level. -/
def Packed (c : Chip) : Prop :=
  ∃ front w fill, c.got = front ++ w ∧ w.length = 7 ∧ Stored c.mcu controlPkt (w ++ [fill])

/-- What the control packet and the registers hold before an instruction of the body's loop. -/
def Loads (c : Chip) : Prop :=
  match c.pc with
  | .idle | .body .movA | .body .lcallSignal | .body .ret => True
  | .body .andOverflow => c.a &&& RX_OVERFLOW_FLAG = 0
  | .body .jz => c.zero = true
  | .body _ | .rxReset _ => False
  | .writeSignal .callGetByte | .getByte _ => Packs c (7 - c.x.toNat) []
  | .writeSignal .mviByte => Packs c (7 - c.x.toNat) [c.a]
  | .writeSignal .decX => Packs c (8 - c.x.toNat) []
  | .writeSignal .jnz => Packs c (7 - c.x.toNat) []
  | .writeSignal .movA | .writeSignal .mviLevel => Packs c 7 []
  | .writeSignal .movSize => Packed c
  | .writeSignal .movPacket => Packed c ∧ c.x = PACKET_SIZE
  | .writeSignal .lcallPacket => Packed c ∧ c.x = PACKET_SIZE ∧ c.a = controlPkt
  | .writeSignal _ => True

/-- A packet that was sent: seven bytes that were put one after the other, and a fill level, or
the empty packet of a soft reset. -/
def SignalPacket (stream : List Byte) (packet : List Byte) : Prop :=
  packet = [] ∨ ∃ w fill, packet = w ++ [fill] ∧ w.length = 7 ∧ w <:+: stream

/-- What holds before every instruction since `sent₀` had been sent. -/
structure Chip.Signals (sent₀ : List (List Byte)) (c : Chip) : Prop where
  inv : c.Inv
  loads : Loads c
  noOverflow : c.mcu.rxFlags &&& RX_OVERFLOW_FLAG = 0
  sent : ∃ packets, c.mcu.sent = sent₀ ++ packets ∧ ∀ p ∈ packets, SignalPacket c.got p

theorem SignalPacket.mono {stream packet : List Byte} (h : SignalPacket stream packet) (a : Byte) :
    SignalPacket (stream ++ [a]) packet := by
  obtain rfl | ⟨w, fill, rfl, hlen, hw⟩ := h
  · exact .inl rfl
  · exact .inr ⟨w, fill, rfl, hlen, hw.trans (List.prefix_append _ _).isInfix⟩

/-! ### Interrupts -/

theorem packetByte_above {i : ℕ} (h : i < 8) :
    bufferPtr.toNat < (controlPkt + BitVec.ofNat 8 i).toNat := packetPointer_above (by omega)

section frame
variable {c : Chip} {m : Mcu} {put : List Byte}
  (hram : ∀ i < 8, m.ram (controlPkt + BitVec.ofNat 8 i) = c.mcu.ram (controlPkt + BitVec.ofNat 8 i))
include hram

theorem Packs.frame {k : ℕ} {pending : List Byte} (hk : k ≤ 8) (h : Packs c k pending) :
    Packs { c with mcu := m, put := put } k pending := by
  obtain ⟨front, w, hgot, hlen, hstored⟩ := h
  exact ⟨front, w, hgot, hlen, hstored.congr (fun i hi => hram i (by omega))⟩

theorem Packed.frame (h : Packed c) : Packed { c with mcu := m, put := put } := by
  obtain ⟨front, w, fill, hgot, hlen, hstored⟩ := h
  refine ⟨front, w, fill, hgot, hlen, hstored.congr (fun i hi => hram i ?_)⟩
  rw [List.length_append, List.length_singleton] at hi
  omega

theorem Loads.frame (h : Loads c) : Loads { c with mcu := m, put := put } := by
  obtain ⟨pc, caller, a, x, zero, carry, gie, twrap, m₀, put₀, got⟩ := c
  cases pc with
  | idle => trivial
  | rxReset p => exact h
  | getByte p => exact Packs.frame hram (by omega) h
  | body p => cases p <;> exact h
  | writeSignal p =>
      cases p with
      | callGetByte | mviByte | jnz | movA | mviLevel => exact Packs.frame hram (by omega) h
      | decX => exact Packs.frame hram (by omega) h
      | movSize => exact Packed.frame hram h
      | movPacket => exact ⟨Packed.frame hram h.1, h.2⟩
      | lcallPacket => exact ⟨Packed.frame hram h.1, h.2⟩
      | cmp | jc | movX | movTmp1 | ret => trivial

end frame

/-- Outside of `rx_reset` the buffer holds what was put and not returned. -/
theorem Loads.shape {c : Chip} (h : Loads c) :
    ¬(c.pc.shape = .resetting ∨ c.pc.shape = .rewound) := by
  intro hshape
  obtain ⟨p, hp⟩ := Pc.reset_of_shape hshape
  unfold Loads at h
  rw [hp] at h
  exact h

theorem Chip.Signals.interrupt {sent₀ : List (List Byte)} {c : Chip} (h : c.Signals sent₀)
    {added : List Byte} (hroom : c.mcu.bufSize.toNat + added.length ≤ 150) :
    Chip.Signals sent₀ { c with mcu := putBytes added c.mcu, put := c.put ++ accepted added c.mcu } := by
  obtain ⟨x, bytes, hholds⟩ := h.inv.holds h.loads.shape
  obtain ⟨-, hflags, hsent⟩ := accepted_all added hholds hroom
  refine ⟨interrupt_inv h.inv added, h.loads.frame ?_, ?_, ?_⟩
  · intro i hi
    exact hholds.putBytes_ram added (packetByte_above hi)
  · rw [hflags]
    exact h.noOverflow
  · rw [hsent]
    exact h.sent

/-! ### Instructions -/

theorem getByte_signals {sent₀ : List (List Byte)} {c : Chip} {p : GetByte}
    (hpc : c.pc = .getByte p) (h : c.Signals sent₀) : (getByte c p).Signals sent₀ := by
  have hinv := getByte_inv hpc h.inv
  obtain ⟨pc, caller, a, x, zero, carry, gie, twrap, m, put, got⟩ := c
  obtain rfl : pc = .getByte p := hpc
  obtain ⟨-, hloads, hflag, packets, hsent, hpackets⟩ := h
  cases p with
  | mvi | cmp | mov | andF | dec | orF => exact ⟨hinv, hloads, hflag, packets, hsent, hpackets⟩
  | jnz =>
      refine ⟨hinv, ?_, hflag, packets, hsent, hpackets⟩
      cases zero <;> exact hloads
  | ret =>
      refine ⟨hinv, ?_, hflag, packets, hsent, fun p hp => (hpackets p hp).mono a⟩
      obtain ⟨front, w, hgot, hlen, hstored⟩ := hloads
      refine ⟨front, w, ?_, hlen, hstored⟩
      change got ++ [a] = front ++ (w ++ [a])
      have hgot' : got = front ++ (w ++ []) := hgot
      rw [hgot', List.append_nil, List.append_assoc]

/-- `write_packet` from the control packet. -/
theorem lcallPacket_signals {sent₀ : List (List Byte)} {c : Chip}
    (hpc : c.pc = .writeSignal .lcallPacket) (h : c.Signals sent₀) :
    (lcallWritePacket (.writeSignal .ret) c).Signals sent₀ := by
  have hinv : (lcallWritePacket (.writeSignal .ret) c).Inv := by
    have hinv := writeSignal_inv hpc h.inv
    exact hinv
  obtain ⟨pc, caller, a, x, zero, carry, gie, twrap, m, put, got⟩ := c
  obtain rfl : pc = .writeSignal .lcallPacket := hpc
  obtain ⟨-, ⟨⟨front, w, fill, hgot, hlen, hstored⟩, hx, ha⟩, hflag, packets, hsent, hpackets⟩ := h
  obtain rfl : x = PACKET_SIZE := hx
  obtain rfl : a = controlPkt := ha
  have hgot' : got = front ++ w := hgot
  have hnew : ∀ packet, SignalPacket got packet →
      ∃ packets', m.sent ++ [packet] = sent₀ ++ packets' ∧ ∀ p ∈ packets', SignalPacket got p := by
    intro packet hpacket
    have hsent' : m.sent = sent₀ ++ packets := hsent
    refine ⟨packets ++ [packet], by rw [hsent', List.append_assoc], ?_⟩
    intro p hp
    obtain hp | hp := List.mem_append.mp hp
    · exact hpackets p hp
    · rw [List.mem_singleton.mp hp]
      exact hpacket
  unfold lcallWritePacket writePacket at hinv ⊢
  dsimp only at hinv ⊢
  split_ifs at hinv ⊢
  · exact ⟨hinv, trivial, hflag, hnew [] (.inl rfl)⟩
  · refine ⟨hinv, trivial, hflag, hnew _ (.inr ⟨w, fill, ?_, hlen, ?_⟩)⟩
    · have hlen' : (w ++ [fill]).length = PACKET_SIZE.toNat := by
        rw [List.length_append, hlen]
        rfl
      have htmp : ∀ i < 8, controlPkt + BitVec.ofNat 8 i ≠ tmp1 ∧
          controlPkt + BitVec.ofNat 8 i ≠ tmp2 := by decide
      rw [← hlen']
      apply Stored.readAll
      apply hstored.congr
      intro i hi
      obtain ⟨hne₁, hne₂⟩ := htmp i (by rw [hlen'] at hi; exact hi)
      rw [Mcu.write_ne _ _ hne₂, Mcu.write_ne _ _ hne₁]
    · rw [hgot']
      exact (List.suffix_append _ _).isInfix

/-- A byte goes behind those in the control packet. -/
theorem mvi_stored {m : Mcu} {w : List Byte} (h : Stored m controlPkt w) (hlen : w.length < 8)
    (hptr : m.ram tmp1 = controlPkt + BitVec.ofNat 8 w.length) (a : Byte) :
    Stored (m.mvi tmp1 a) controlPkt (w ++ [a]) := by
  have htmp : ∀ i < 8, controlPkt + BitVec.ofNat 8 i ≠ tmp1 := by decide
  apply h.snoc
  · intro i hi
    have hne : controlPkt + BitVec.ofNat 8 i ≠ controlPkt + BitVec.ofNat 8 w.length := by
      intro heq
      rw [BitVec.add_right_inj, ← BitVec.toNat_inj, BitVec.toNat_ofNat, BitVec.toNat_ofNat] at heq
      omega
    rw [Mcu.mvi, Mcu.write_ne _ _ (htmp i (by omega)), hptr, Mcu.write_ne _ _ hne]
  · rw [Mcu.mvi, Mcu.write_ne _ _ (htmp _ hlen), hptr, Mcu.write_same]

theorem writeSignal_signals {sent₀ : List (List Byte)} {c : Chip} {p : WriteSignal}
    (hpc : c.pc = .writeSignal p) (h : c.Signals sent₀) : (writeSignal c p).Signals sent₀ := by
  by_cases hp : p = .lcallPacket
  · subst hp
    exact lcallPacket_signals hpc h
  have hinv := writeSignal_inv hpc h.inv
  obtain ⟨pc, caller, a, x, zero, carry, gie, twrap, m, put, got⟩ := c
  obtain rfl : pc = .writeSignal p := hpc
  obtain ⟨⟨-, hfacts⟩, hloads, hflag, packets, hsent, hpackets⟩ := h
  refine ⟨hinv, ?_, ?_, packets, ?_, ?_⟩
  · cases p with
    | lcallPacket => exact absurd rfl hp
    | cmp | movX | ret => trivial
    | jc => cases carry <;> trivial
    | movTmp1 =>
        obtain ⟨hx, -⟩ := hfacts
        have hx' : x.toNat = 7 := hx
        refine ⟨got, [], (List.append_nil _).symm, ?_, Stored.nil _ _⟩
        change 0 = 7 - x.toNat
        omega
    | callGetByte => exact hloads
    | mviByte =>
        obtain ⟨k, hlt, hpointer, hx, -⟩ := hfacts
        obtain ⟨front, w, hgot, hlen, hstored⟩ := hloads
        have hx' : x.toNat + k + 0 = 7 := hx
        have hlen' : w.length = 7 - x.toNat := hlen
        refine ⟨front, w ++ [a], ?_, ?_, ?_⟩
        · rw [List.append_nil]
          exact hgot
        · rw [List.length_append, List.length_singleton, hlen']
          change _ = 8 - x.toNat
          omega
        · apply mvi_stored hstored (by omega)
          have hk : w.length = k := by omega
          rw [hk]
          exact hpointer
    | decX =>
        obtain ⟨k, hlt, -, hx, -⟩ := hfacts
        have hx' : x.toNat + k + 0 = 7 := hx
        have hcount : 8 - x.toNat = 7 - (x - 1).toNat := by
          rw [toNat_pred (by omega)]
          omega
        change Packs _ (7 - (x - 1).toNat) []
        rw [← hcount]
        exact hloads
    | jnz =>
        obtain ⟨-, hzero⟩ := hfacts
        cases zero with
        | true =>
            have hx : x = 0 := hzero.mp rfl
            subst hx
            exact hloads
        | false => exact hloads
    | movA => exact hloads
    | mviLevel =>
        obtain ⟨front, w, hgot, hlen, hstored⟩ := hloads
        refine ⟨front, w, a, ?_, hlen, ?_⟩
        · rw [← List.append_nil w]
          exact hgot
        · apply mvi_stored hstored (by omega)
          rw [hlen]
          exact hfacts
    | movSize => exact ⟨hloads, rfl⟩
    | movPacket => exact ⟨hloads.1, hloads.2, rfl⟩
  · cases p with
    | lcallPacket => exact absurd rfl hp
    | _ => exact hflag
  · cases p with
    | lcallPacket => exact absurd rfl hp
    | _ => exact hsent
  · cases p with
    | lcallPacket => exact absurd rfl hp
    | _ => exact hpackets

theorem body_signals {sent₀ : List (List Byte)} {c : Chip} {p : Body} (hpc : c.pc = .body p)
    (h : c.Signals sent₀) : (body c p).Signals sent₀ := by
  have hinv := body_inv hpc h.inv
  obtain ⟨pc, caller, a, x, zero, carry, gie, twrap, m, put, got⟩ := c
  obtain rfl : pc = .body p := hpc
  obtain ⟨-, hloads, hflag, hsent⟩ := h
  cases p with
  | movA => exact ⟨hinv, hflag, hflag, hsent⟩
  | andOverflow => exact ⟨hinv, decide_eq_true hloads, hflag, hsent⟩
  | jz =>
      obtain rfl : zero = true := hloads
      exact ⟨hinv, trivial, hflag, hsent⟩
  | lcallSignal | ret => exact ⟨hinv, trivial, hflag, hsent⟩
  | orOn | lcallOn | andOn | lcallOff | movAck | lcallAck | retAck | movCode | movX | lcallControl
  | lcallReset => exact hloads.elim

/-! ### Runs -/

theorem Chip.Listens.signals {c : Chip} (h : c.Listens) : c.Signals c.mcu.sent := by
  refine ⟨?_, ?_, h.noOverflow, [], (List.append_nil _).symm, by simp⟩
  · have hfits : Shape.whole.Fits c := by
      refine ⟨0, [], .empty h.ptr h.size, by rw [h.put, h.got]; rfl, ?_⟩
      rw [BitVec.add_zero]
      exact h.readPtr
    have hplain : c.pc.Plain := by
      rw [h.pc]
      exact plain_idle
    exact hplain.inv hfits
  · unfold Loads
    rw [h.pc]
    trivial

/-- Only a handler puts bytes. -/
theorem writeSignal_put (c : Chip) (p : WriteSignal) : (writeSignal c p).put = c.put := by
  cases p with
  | lcallPacket => exact (lcallWritePacket_framed (.writeSignal .ret) c).put
  | _ => rfl

theorem body_put (c : Chip) (p : Body) : (body c p).put = c.put := by
  cases p with
  | lcallAck => exact (lcallWritePacket_framed (.body .retAck) _).put
  | lcallControl => exact (lcallWritePacket_framed (.body .lcallReset) _).put
  | _ => rfl

/-- An instruction of the body's loop. -/
theorem instruction_signals {sent₀ : List (List Byte)} {c c' : Chip} (h : c.Signals sent₀)
    (hc : instruction c = some c') : c'.Signals sent₀ ∧ c'.put = c.put := by
  unfold instruction at hc
  cases hpc : c.pc with
  | idle => simp [hpc] at hc
  | body p =>
      simp only [hpc, Option.some.injEq] at hc
      rw [← hc]
      exact ⟨body_signals hpc h, body_put c p⟩
  | writeSignal p =>
      simp only [hpc, Option.some.injEq] at hc
      rw [← hc]
      exact ⟨writeSignal_signals hpc h, writeSignal_put c p⟩
  | getByte p =>
      simp only [hpc, Option.some.injEq] at hc
      rw [← hc]
      refine ⟨getByte_signals hpc h, ?_⟩
      cases p <;> rfl
  | rxReset p =>
      have hloads := h.loads
      unfold Loads at hloads
      rw [hpc] at hloads
      exact hloads.elim

theorem signalStep_signals {sent₀ : List (List Byte)} {c c' : Chip} {e : SignalEvent} {o : Unit}
    (h : c.Signals sent₀) (hroom : HasRoom c e) (hstep : signalStep c e = some (c', o)) :
    c'.Signals sent₀ ∧ c'.put = c.put ++ e.bytes := by
  have hinterrupt {i : Interrupt} {added : List Byte}
      (hadded : c.mcu.bufSize.toNat + added.length ≤ 150)
      (hstep : chipStep c (.interrupt i added) = some (c', o)) :
      c'.Signals sent₀ ∧ c'.put = c.put ++ added := by
    simp only [chipStep, Option.ite_none_right_eq_some, Option.some.injEq, Prod.mk.injEq] at hstep
    obtain ⟨-, rfl, -⟩ := hstep
    obtain ⟨x, bytes, hholds⟩ := h.inv.holds h.loads.shape
    refine ⟨h.interrupt hadded, ?_⟩
    rw [(accepted_all added hholds hadded).1]
  cases e with
  | instruction =>
      have hstep' : (instruction c).map (·, ()) = some (c', o) := hstep
      obtain ⟨c₁, hc₁, heq⟩ := Option.map_eq_some_iff.mp hstep'
      obtain ⟨rfl, -⟩ := Prod.mk.inj heq
      obtain ⟨hsignals, hput⟩ := instruction_signals h hc₁
      exact ⟨hsignals, hput.trans (List.append_nil _).symm⟩
  | loop =>
      simp only [signalStep, SignalEvent.toChip, chipStep, Option.ite_none_right_eq_some,
        Option.some.injEq, Prod.mk.injEq] at hstep
      obtain ⟨hidle, rfl, -⟩ := hstep
      have hfits := h.inv.fits
      rw [hidle] at hfits
      have hinv : Chip.Inv { c with pc := Operation.loop.entry } :=
        Pc.Plain.inv Operation.loop.entry_plain hfits
      exact ⟨⟨hinv, trivial, h.noOverflow, h.sent⟩, (List.append_nil _).symm⟩
  | capture rising timer => exact hinterrupt hroom hstep
  | wrap => exact hinterrupt hroom hstep

/-- What the interrupts of a run have put. -/
def stream (es : List SignalEvent) : List Byte := es.flatMap SignalEvent.bytes

theorem signalRun_signals {sent₀ : List (List Byte)} : ∀ {es : List SignalEvent} {c c' : Chip}
    {os : List Unit}, c.Signals sent₀ → Transition.Guarded signalStep HasRoom c es →
      Transition.run signalStep c es = some (c', os) →
        c'.Signals sent₀ ∧ c'.put = c.put ++ stream es
  | [], c, c', os, h, _, hrun => by
      obtain ⟨rfl, -⟩ := Prod.mk.inj (Option.some.inj hrun)
      exact ⟨h, (List.append_nil _).symm⟩
  | e :: es, c, c', os, h, hroom, hrun => by
      obtain ⟨c₁, o, os', hstep, hrest, -⟩ := Transition.run_cons hrun
      obtain ⟨h₁, hput₁⟩ := signalStep_signals h hroom.1 hstep
      obtain ⟨h', hput⟩ := signalRun_signals h₁ (hroom.2 (c₁, o) hstep) hrest
      refine ⟨h', ?_⟩
      rw [hput, hput₁, List.append_assoc]
      rfl

/-- What was returned is a first part of what was put. -/
theorem Chip.Signals.got_prefix {sent₀ : List (List Byte)} {c : Chip} (h : c.Signals sent₀) :
    c.got <+: c.put := by
  have hfits := h.inv.fits
  have hshape := h.loads.shape
  cases hs : c.pc.shape with
  | resetting => exact absurd (.inl hs) hshape
  | rewound => exact absurd (.inr hs) hshape
  | whole | taken | turned | dropped =>
      rw [hs] at hfits
      obtain ⟨x, bytes, -, hput, -⟩ := hfits
      rw [hput]
      exact List.prefix_append _ _

/-- **The packets of a signal.**  Whatever comes in between the instructions of `write_signal`,
each packet that it sends has seven bytes that were put one after the other, and a fill level. -/
theorem signalRun_packets {c c' : Chip} {es : List SignalEvent} {os : List Unit} (h : c.Listens)
    (hroom : Transition.Guarded signalStep HasRoom c es)
    (hrun : Transition.run signalStep c es = some (c', os)) :
    ∃ packets, c'.mcu.sent = c.mcu.sent ++ packets ∧
      ∀ p ∈ packets, SignalPacket (stream es) p := by
  obtain ⟨hsignals, hput⟩ := signalRun_signals h.signals hroom hrun
  rw [h.put, List.nil_append] at hput
  obtain ⟨packets, hsent, hpackets⟩ := hsignals.sent
  refine ⟨packets, hsent, ?_⟩
  intro p hp
  obtain rfl | ⟨w, fill, rfl, hlen, hw⟩ := hpackets p hp
  · exact .inl rfl
  · refine .inr ⟨w, fill, rfl, hlen, ?_⟩
    rw [← hput]
    exact hw.trans hsignals.got_prefix.isInfix

end IguanaIR.Firmware
