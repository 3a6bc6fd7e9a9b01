import IguanaIR.Firmware.Ir
import IguanaIR.Ring

/-! # Receiving

What a capture leaves in the receive buffer: its bytes behind those that are already there, when
there is room for them. -/

namespace IguanaIR.Firmware

/-! ### The receive buffer -/

namespace Mcu

/-- A byte of the buffer. -/
def cell (m : Mcu) (x : ℕ) : Byte := m.ram (buffer + BitVec.ofNat 8 x)

/-- Where the oldest byte is. -/
def head (m : Mcu) : ℕ := (m.readPtr - buffer).toNat

/-- The bytes that are waiting, the oldest one first. -/
def received (m : Mcu) : List Byte := Ring.contents 150 m.cell m.head m.bufSize.toNat

/-- The pointers and the size of the receive buffer agree. -/
structure RingWell (m : Mcu) : Prop where
  head_lt : m.head < 150
  ptr : m.ram bufferPtr = buffer + BitVec.ofNat 8 ((m.head + m.bufSize.toNat) % 150)
  size_le : m.bufSize.toNat ≤ 150

end Mcu

theorem cellAddress_ne {x : ℕ} (hx : x < 150) : buffer + BitVec.ofNat 8 x ≠ bufferPtr := by
  have hb : buffer.toNat = 93 := rfl
  have hp : bufferPtr.toNat = 243 := rfl
  intro h
  have h' := congrArg BitVec.toNat h
  rw [BitVec.toNat_add, hb, hp, BitVec.toNat_ofNat] at h'
  omega

theorem cellAddress_inj {x y : ℕ} (hx : x < 150) (hy : y < 150)
    (h : buffer + BitVec.ofNat 8 x = buffer + BitVec.ofNat 8 y) : x = y := by
  rw [BitVec.add_right_inj, ← BitVec.toNat_inj, BitVec.toNat_ofNat, BitVec.toNat_ofNat] at h
  omega

/-- The cell behind cell `x`, around the end. -/
theorem nextCell {x : ℕ} (hx : x < 150) :
    (if buffer + BitVec.ofNat 8 x + 1 = buffer + BUFFER_SIZE then buffer
      else buffer + BitVec.ofNat 8 x + 1) = buffer + BitVec.ofNat 8 ((x + 1) % 150) := by
  have hsucc : buffer + BitVec.ofNat 8 x + 1 = buffer + BitVec.ofNat 8 (x + 1) := by
    rw [BitVec.add_assoc, BitVec.ofNat_add]
    rfl
  rw [hsucc]
  by_cases hend : x = 149
  · rw [hend]
    rfl
  · have hne : buffer + BitVec.ofNat 8 (x + 1) ≠ buffer + BUFFER_SIZE := fun h => by
      rw [BitVec.add_right_inj, ← BitVec.toNat_inj, BitVec.toNat_ofNat] at h
      have hsize : BUFFER_SIZE.toNat = 150 := rfl
      omega
    rw [if_neg hne, Nat.mod_eq_of_lt (by omega)]

/-- What `put_byte` does where there is room, with the pointer at cell `x`. -/
theorem putByte_eq {m : Mcu} {x : ℕ} (hx : x < 150)
    (hptr : m.ram bufferPtr = buffer + BitVec.ofNat 8 x) (hroom : m.bufSize ≠ BUFFER_SIZE)
    (a : Byte) : ∃ ram, putByte a m = { m with ram := ram, bufSize := m.bufSize + 1 } ∧
      ram bufferPtr = buffer + BitVec.ofNat 8 ((x + 1) % 150) ∧
      ∀ y, y ≠ bufferPtr → ram y = if y = buffer + BitVec.ofNat 8 x then a else m.ram y := by
  have hne := cellAddress_ne hx
  have hptr' : (m.write (buffer + BitVec.ofNat 8 x) a).ram bufferPtr =
      buffer + BitVec.ofNat 8 x := by
    rw [Mcu.write_ne _ _ hne.symm, hptr]
  have hother (v y : Byte) (hy : y ≠ bufferPtr) :
      ((m.write (buffer + BitVec.ofNat 8 x) a).write bufferPtr v).ram y =
        if y = buffer + BitVec.ofNat 8 x then a else m.ram y := by
    rw [Mcu.write_ne _ _ hy]
    rfl
  unfold putByte
  rw [if_neg hroom, hptr]
  dsimp only
  rw [hptr', ← nextCell hx, Mcu.write_same]
  split_ifs with hend
  · exact ⟨_, rfl, if_pos rfl, fun y hy => (if_neg hy).trans (hother _ y hy)⟩
  · exact ⟨_, rfl, Mcu.write_same _ _ _, hother _⟩

/-- A byte is put behind the others, if there is room. -/
theorem putByte_spec {m : Mcu} (h : m.RingWell) (hroom : m.bufSize.toNat < 150) (a : Byte) :
    (putByte a m).RingWell ∧ (putByte a m).received = m.received ++ [a] ∧
      (putByte a m).bufSize.toNat = m.bufSize.toNat + 1 ∧
      ∃ ram size, putByte a m = { m with ram := ram, bufSize := size } := by
  have hfree : (m.head + m.bufSize.toNat) % 150 < 150 := Nat.mod_lt _ (by omega)
  have hnotfull : m.bufSize ≠ BUFFER_SIZE := fun hs => by
    rw [hs] at hroom
    exact absurd hroom (by decide)
  have hsize : (m.bufSize + 1).toNat = m.bufSize.toNat + 1 := Mcu.toNat_succ (by omega)
  obtain ⟨ram, heq, hptr, hram⟩ := putByte_eq hfree h.ptr hnotfull a
  rw [heq]
  refine ⟨⟨h.head_lt, ?_, ?_⟩, ?_, hsize, ram, _, rfl⟩
  · change ram bufferPtr = buffer + BitVec.ofNat 8 ((m.head + (m.bufSize + 1).toNat) % 150)
    rw [hptr, hsize, ← Nat.add_assoc, Nat.mod_add_mod]
  · change (m.bufSize + 1).toNat ≤ 150
    omega
  · change Ring.contents 150 (fun x => ram (buffer + BitVec.ofNat 8 x)) m.head (m.bufSize + 1).toNat
      = _
    rw [hsize]
    refine Ring.contents_push hroom ?_ fun x hx hne => ?_
    · rw [hram _ (cellAddress_ne hfree), if_pos rfl]
    · rw [hram _ (cellAddress_ne hx), if_neg (fun he => hne (cellAddress_inj hx hfree he))]
      rfl

/-- `bytes` went into the receive buffer, and nothing else changed. -/
structure Puts (m m' : Mcu) (bytes : List Byte) : Prop where
  well : m'.RingWell
  received : m'.received = m.received ++ bytes
  size : m'.bufSize.toNat = m.bufSize.toNat + bytes.length
  rest : ∃ ram size, m' = { m with ram := ram, bufSize := size }

theorem putByte_iterate (b : Byte) : ∀ (n : ℕ) {m : Mcu}, m.RingWell → m.bufSize.toNat + n ≤ 150 →
    Puts m ((putByte b)^[n] m) (List.replicate n b)
  | 0, m, h, _ => ⟨h, (List.append_nil _).symm, rfl, m.ram, m.bufSize, rfl⟩
  | n + 1, m, h, hroom => by
      obtain ⟨hwell, hreceived, hsize, ram, size, hrest⟩ := putByte_spec h (by omega) b
      obtain ⟨hwell', hreceived', hsize', ram', size', hrest'⟩ :=
        putByte_iterate b n hwell (by omega)
      rw [Function.iterate_succ_apply, List.replicate_succ]
      refine ⟨hwell', ?_, ?_, ram', size', ?_⟩
      · rw [hreceived', hreceived, List.append_assoc, List.singleton_append]
      · rw [hsize', hsize, List.length_cons]
        omega
      · rw [hrest', hrest]

/-- `rx_reset` leaves an empty buffer. -/
theorem rxReset_well (m : Mcu) : (rxReset m).RingWell ∧ (rxReset m).received = [] := by
  have hread : (rxReset m).readPtr = buffer := by
    unfold rxReset rxDisable txPinsOff
    dsimp only
    split_ifs <;> rfl
  have hsize : (rxReset m).bufSize = 0 := by
    unfold rxReset rxDisable txPinsOff
    dsimp only
    split_ifs <;> rfl
  have hptr : (rxReset m).ram bufferPtr = buffer := by
    unfold rxReset rxDisable txPinsOff
    dsimp only
    split_ifs <;> rfl
  have hhead : (rxReset m).head = 0 := by
    rw [Mcu.head, hread]
    rfl
  refine ⟨⟨?_, ?_, ?_⟩, ?_⟩
  · rw [hhead]
    omega
  · rw [hptr, hhead, hsize]
    rfl
  · rw [hsize]
    exact Nat.zero_le 150
  · rw [Mcu.received, hsize]
    rfl

/-! ### Captures -/

/-- The state bit of a capture: a rising edge ends a pulse. -/
def pulseBit (rising : Bool) : Byte := if rising then 0x00 else 0x80

/-- How many full bytes a timer value takes. -/
def fullBytes (timer : BitVec 16) : ℕ := ((timer.extractLsb' 8 8).sshiftRight 5 &&& 0x07).toNat

/-- The bytes of a capture. -/
def captureBytes (rising : Bool) (timer : BitVec 16) : List Byte :=
  List.replicate (fullBytes timer) (pulseBit rising ||| 0x7F) ++
    [remainderByte (timer.extractLsb' 8 8) (timer.extractLsb' 0 8) (pulseBit rising)]

/-- The variables of the interrupt are not part of the receive buffer. -/
theorem Mcu.RingWell.setTimer {m : Mcu} (h : m.RingWell) (high low pulse : Byte) :
    (m.setTimer high low pulse).RingWell := ⟨h.head_lt, h.ptr, h.size_le⟩

/-- **A capture** puts its bytes behind the others, if there is room for them. -/
theorem tcapInt_received {m : Mcu} (h : m.RingWell) (hq : ¬repeating m) (rising : Bool)
    (timer : BitVec 16) (hroom : m.bufSize.toNat + (captureBytes rising timer).length ≤ 150) :
    (tcapInt rising timer m).RingWell ∧
      (tcapInt rising timer m).received = m.received ++ captureBytes rising timer := by
  have hlen : (captureBytes rising timer).length = fullBytes timer + 1 := by
    rw [captureBytes, List.length_append, List.length_replicate, List.length_singleton]
  obtain ⟨m₁, hm₁⟩ : ∃ m₁, m₁ = m.setTimer ((timer.extractLsb' 8 8).sshiftRight 5 &&& 0x07)
      (remainderByte (timer.extractLsb' 8 8) (timer.extractLsb' 0 8) (pulseBit rising))
      (pulseBit rising) := ⟨_, rfl⟩
  obtain ⟨m₂, hm₂⟩ : ∃ m₂, m₂ = (putByte (pulseBit rising ||| 0x7F))^[fullBytes timer] m₁ := ⟨_, rfl⟩
  have hstep : tcapInt rising timer m = putByte m₂.rxLow (m₂.setTimer 0 m₂.rxLow m₂.rxPulse) := by
    have hload : tcapInt rising timer m = loadValue
        (m.setTimer (timer.extractLsb' 8 8) (timer.extractLsb' 0 8) (pulseBit rising)) := if_neg hq
    rw [hload, hm₂, hm₁]
    rfl
  have hsize₁ : m₁.bufSize = m.bufSize := by rw [hm₁]; rfl
  have hreceived₁ : m₁.received = m.received := by rw [hm₁]; rfl
  have hwell₁ : m₁.RingWell := by rw [hm₁]; exact h.setTimer _ _ _
  -- the full bytes
  have hputs := putByte_iterate (pulseBit rising ||| 0x7F) (fullBytes timer) hwell₁
    (by rw [hsize₁]; omega)
  rw [← hm₂] at hputs
  obtain ⟨hwell, hreceived, hsize, ram, size, hrest⟩ := hputs
  rw [List.length_replicate, hsize₁] at hsize
  have hlow : m₂.rxLow =
      remainderByte (timer.extractLsb' 8 8) (timer.extractLsb' 0 8) (pulseBit rising) := by
    rw [hrest, hm₁]
    rfl
  -- the remainder
  have hroom₂ : (m₂.setTimer 0 m₂.rxLow m₂.rxPulse).bufSize.toNat < 150 := by
    change m₂.bufSize.toNat < 150
    omega
  obtain ⟨hwell', hreceived', -⟩ := putByte_spec (hwell.setTimer 0 m₂.rxLow m₂.rxPulse) hroom₂
    m₂.rxLow
  rw [hstep]
  refine ⟨hwell', ?_⟩
  have hsame : (m₂.setTimer 0 m₂.rxLow m₂.rxPulse).received = m₂.received := rfl
  rw [hreceived', hsame, hreceived, hreceived₁, hlow, captureBytes, List.append_assoc]

end IguanaIR.Firmware
