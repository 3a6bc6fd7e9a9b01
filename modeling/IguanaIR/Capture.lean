import IguanaIR.Incoming
import IguanaIR.Firmware.Receive

/-! # From the timer to microseconds

The bytes that the firmware's captures leave in the receive buffer against what
`iguanaDevToPulses` makes of them.  The firmware stores a tick less than it counted so that 128
fits seven bits, but a remainder of 0 it stores as it is, or as 127 in the odd multiples of 128,
and a remainder of 1 becomes the empty byte, which the host takes for 1024 ticks. -/

namespace IguanaIR

open Firmware

/-- A capture, and the firmware's state that it finds. -/
structure Capture where
  rising : Bool
  timer : BitVec 16
  found : Mcu

namespace Capture

/-- `t >> 6`. -/
def ticks (c : Capture) : ℕ := c.timer.toNat / 64

/-- The bytes that the capture adds to the receive buffer. -/
def bytes (c : Capture) : List Byte :=
  (tcapInt c.rising c.timer c.found).received.drop c.found.received.length

/-- The receiver is on, and the receive buffer has room for the capture. -/
structure Fits (c : Capture) : Prop where
  well : c.found.RingWell
  receiving : ¬repeating c.found
  room : c.found.bufSize.toNat + (captureBytes c.rising c.timer).length ≤ 150

end Capture

/-- The word for so many ticks: `64 * T / 3` microseconds, and the bit of a pulse. -/
def durationWord (rising : Bool) (ticks : ℕ) : BitVec 32 :=
  BitVec.ofNat 32 (64 * ticks / 3) ||| if rising then IG_PULSE_BIT else 0

/-- The word tells the capture's state, and its duration up to one tick. -/
def Faithful (c : Capture) (word : BitVec 32) : Prop :=
  ∃ ticks, ticks ≤ c.ticks + 1 ∧ c.ticks ≤ ticks + 1 ∧ word = durationWord c.rising ticks

/-! ### The bytes of one capture -/

theorem sshiftRight_six : ∀ b : Byte, b.sshiftRight 6 &&& 0x03 = BitVec.ofNat 8 (b.toNat / 64) := by
  decide +kernel

theorem sshiftRight_five : ∀ b : Byte, (b.sshiftRight 5 &&& 0x07).toNat = b.toNat / 32 := by
  decide +kernel

theorem or_shiftLeft_two : ∀ k < 4, ∀ b : Byte,
    (BitVec.ofNat 8 k ||| b <<< 2).toNat = k + 4 * b.toNat % 256 := by
  decide +kernel

/-- The ticks that the host reads out of the byte for a remainder. -/
def remainderTicks (x : ℕ) : ℕ :=
  if x = 0 ∨ x % 128 = 1 then 1024 else if x % 128 = 0 then 128 else x % 128

theorem receivedTicks_remainder : ∀ (x : Byte) (rising : Bool),
    receivedTicks ((if x = 0 then x else x - 1) &&& 0x7F ||| pulseBit rising) =
      BitVec.ofNat 32 (remainderTicks x.toNat) := by
  decide +kernel

theorem state_remainder : ∀ (x : Byte) (rising : Bool),
    (x &&& 0x7F ||| pulseBit rising) &&& STATE_MASK = pulseBit rising := by
  decide +kernel

theorem high_toNat (timer : BitVec 16) : (timer.extractLsb' 8 8).toNat = timer.toNat / 256 := by
  rw [BitVec.extractLsb'_toNat, Nat.shiftRight_eq_div_pow]
  omega

theorem low_toNat (timer : BitVec 16) : (timer.extractLsb' 0 8).toNat = timer.toNat % 256 := by
  rw [BitVec.extractLsb'_toNat, Nat.shiftRight_zero]

theorem fullBytes_eq (timer : BitVec 16) : fullBytes timer = timer.toNat / 64 / 128 := by
  rw [fullBytes, sshiftRight_five, high_toNat]
  omega

/-- The low eight bits of the ticks. -/
theorem lowTicks_toNat (timer : BitVec 16) :
    ((timer.extractLsb' 0 8).sshiftRight 6 &&& (0x03 : Byte) ||| timer.extractLsb' 8 8 <<< 2).toNat =
      timer.toNat / 64 % 256 := by
  have hlow := low_toNat timer
  rw [sshiftRight_six, or_shiftLeft_two _ (by omega), high_toNat, hlow]
  omega

theorem receivedTicks_remainderByte (rising : Bool) (timer : BitVec 16) :
    receivedTicks (remainderByte (timer.extractLsb' 8 8) (timer.extractLsb' 0 8) (pulseBit rising)) =
      BitVec.ofNat 32 (remainderTicks (timer.toNat / 64 % 256)) := by
  rw [← lowTicks_toNat, ← receivedTicks_remainder _ rising]
  rfl

/-- The bytes that a capture adds are those of its value. -/
theorem Capture.bytes_eq {c : Capture} (h : c.Fits) : c.bytes = captureBytes c.rising c.timer := by
  rw [Capture.bytes, (tcapInt_received h.well h.receiving c.rising c.timer h.room).2,
    List.drop_left]

/-! ### The host's side -/

theorem devToPulses_same {inSpace : Byte} {ticks : BitVec 32} {b : Byte} {rest : List Byte}
    (hs : b &&& STATE_MASK = inSpace)
    (hle : (b &&& LENGTH_MASK).setWidth 32 + ticks ≤ IG_PULSE_MASK) :
    devToPulses inSpace ticks (b :: rest) = devToPulses inSpace (ticks + receivedTicks b) rest := by
  rw [devToPulses, if_neg (not_or.mpr ⟨not_not.mpr hs, BitVec.not_lt.mpr hle⟩), hs]

/-- A byte of the other state starts a new word. -/
theorem devToPulses_other {inSpace : Byte} {ticks : BitVec 32} {b : Byte} {rest : List Byte}
    (hs : b &&& STATE_MASK ≠ inSpace) :
    devToPulses inSpace ticks (b :: rest) =
      pulseWord inSpace ticks :: devToPulses (b &&& STATE_MASK) (receivedTicks b) rest := by
  rw [devToPulses, if_pos (.inl hs)]

theorem full_spec : ∀ rising : Bool, (pulseBit rising ||| 0x7F) &&& STATE_MASK = pulseBit rising ∧
    receivedTicks (pulseBit rising ||| 0x7F) = 128 := by
  decide

theorem length_le (b : Byte) : ((b &&& LENGTH_MASK).setWidth 32).toNat ≤ 127 := by
  have h : (b &&& LENGTH_MASK).toNat ≤ 127 := by
    rw [BitVec.toNat_and]
    exact Nat.and_le_right
  rw [BitVec.toNat_setWidth]
  omega

/-- A byte of the same state adds its ticks, as long as there are not too many. -/
theorem devToPulses_add {inSpace : Byte} {ticks k : ℕ} {b : Byte} {rest : List Byte}
    (hs : b &&& STATE_MASK = inSpace) (hmore : receivedTicks b = BitVec.ofNat 32 k)
    (hle : ticks < 2 ^ 20) :
    devToPulses inSpace (BitVec.ofNat 32 ticks) (b :: rest) =
      devToPulses inSpace (BitVec.ofNat 32 (ticks + k)) rest := by
  have hmask : IG_PULSE_MASK.toNat = 16777215 := rfl
  have hlen := length_le b
  rw [devToPulses_same hs, hmore, BitVec.ofNat_add]
  rw [BitVec.le_def, BitVec.toNat_add, BitVec.toNat_ofNat, hmask]
  omega

/-- Full bytes add 128 ticks each. -/
theorem devToPulses_full (rising : Bool) (rest : List Byte) : ∀ (n ticks : ℕ), ticks + 128 * n < 2 ^ 20 →
    devToPulses (pulseBit rising) (BitVec.ofNat 32 ticks)
        (List.replicate n (pulseBit rising ||| 0x7F) ++ rest) =
      devToPulses (pulseBit rising) (BitVec.ofNat 32 (ticks + 128 * n)) rest
  | 0, _, _ => rfl
  | n + 1, ticks, h => by
      obtain ⟨hs, hticks⟩ := full_spec rising
      rw [List.replicate_succ, List.cons_append, devToPulses_add (k := 128) hs hticks (by omega),
        devToPulses_full rising rest n (ticks + 128) (by omega)]
      congr 2
      omega

/-- The ticks that the host finds in a capture. -/
def Capture.decodedTicks (c : Capture) : ℕ := 128 * (c.ticks / 128) + remainderTicks (c.ticks % 256)

theorem Capture.ticks_lt (c : Capture) : c.ticks < 1024 := by
  have h := c.timer.isLt
  unfold Capture.ticks
  omega

theorem devToPulses_capture (c : Capture) (rest : List Byte) :
    devToPulses (pulseBit c.rising) 0 (captureBytes c.rising c.timer ++ rest) =
      devToPulses (pulseBit c.rising) (BitVec.ofNat 32 c.decodedTicks) rest := by
  have hlt := c.ticks_lt
  have hfull : fullBytes c.timer = c.ticks / 128 := fullBytes_eq c.timer
  rw [captureBytes, List.append_assoc, hfull]
  have h0 : (0 : BitVec 32) = BitVec.ofNat 32 0 := rfl
  rw [h0, devToPulses_full _ _ _ _ (by omega), List.singleton_append, Nat.zero_add]
  exact devToPulses_add (state_remainder _ _) (receivedTicks_remainderByte _ _) (by omega)

/-- Every capture has a first byte, in its state. -/
theorem captureBytes_cons (rising : Bool) (timer : BitVec 16) :
    ∃ b rest, captureBytes rising timer = b :: rest ∧ b &&& STATE_MASK = pulseBit rising := by
  unfold captureBytes
  cases fullBytes timer with
  | zero => exact ⟨_, _, rfl, state_remainder _ _⟩
  | succ n => exact ⟨_, _, rfl, (full_spec rising).1⟩

/-- A word starts as if there had been an empty one before. -/
theorem devToPulses_start (b : Byte) (rest : List Byte) :
    devToPulses (b &&& STATE_MASK) 0 (b :: rest) =
      devToPulses (b &&& STATE_MASK) (receivedTicks b) rest := by
  have hmask : IG_PULSE_MASK.toNat = 16777215 := rfl
  have hlen := length_le b
  have hzero : 0 + receivedTicks b = receivedTicks b := BitVec.zero_add _
  have hlength : (b &&& LENGTH_MASK).setWidth 32 + 0 = (b &&& LENGTH_MASK).setWidth 32 :=
    BitVec.add_zero _
  rw [devToPulses_same rfl, hzero]
  rw [hlength, BitVec.le_def, hmask]
  omega

/-- Neighbours alternate between pulse and space. -/
def Alternating (captures : List Capture) : Prop :=
  captures.IsChain (fun c c' => c.rising ≠ c'.rising)

theorem devToPulses_captures : ∀ (captures : List Capture) (c : Capture), Alternating (c :: captures) →
    devToPulses (pulseBit c.rising) 0
        ((c :: captures).flatMap (fun c => captureBytes c.rising c.timer)) =
      (c :: captures).map (fun c => pulseWord (pulseBit c.rising) (BitVec.ofNat 32 c.decodedTicks))
  | [], c, _ => by
      rw [List.flatMap_cons, List.flatMap_nil, devToPulses_capture]
      rfl
  | c' :: captures, c, h => by
      obtain ⟨hne, hrest⟩ := List.isChain_cons_cons.mp h
      have ih := devToPulses_captures captures c' hrest
      obtain ⟨b, bytes, hb, hs⟩ := captureBytes_cons c'.rising c'.timer
      have hstate : b &&& STATE_MASK ≠ pulseBit c.rising := by
        rw [hs]
        revert hne
        cases c.rising <;> cases c'.rising <;> decide
      have hlist : (c' :: captures).flatMap (fun c => captureBytes c.rising c.timer) =
          b :: (bytes ++ captures.flatMap (fun c => captureBytes c.rising c.timer)) := by
        rw [List.flatMap_cons, hb, List.cons_append]
      rw [List.flatMap_cons, devToPulses_capture, hlist, devToPulses_other hstate,
        ← devToPulses_start, ← hlist, hs, ih, List.map_cons (l := c' :: captures)]

/-- **What the host makes of captures** that alternate: one word for each. -/
theorem iguanaDevToPulses_captures {captures : List Capture} (hne : captures ≠ [])
    (halt : Alternating captures) :
    iguanaDevToPulses (captures.flatMap (fun c => captureBytes c.rising c.timer)) =
      some (captures.map (fun c =>
        pulseWord (pulseBit c.rising) (BitVec.ofNat 32 c.decodedTicks))) := by
  cases captures with
  | nil => exact absurd rfl hne
  | cons c captures =>
      obtain ⟨b, bytes, hb, hs⟩ := captureBytes_cons c.rising c.timer
      have hlist : (c :: captures).flatMap (fun c => captureBytes c.rising c.timer) =
          b :: (bytes ++ captures.flatMap (fun c => captureBytes c.rising c.timer)) := by
        rw [List.flatMap_cons, hb, List.cons_append]
      rw [← devToPulses_captures captures c halt, hlist, iguanaDevToPulses, ← devToPulses_start, hs]

/-! ### Durations -/

theorem pulseWord_eq (rising : Bool) {ticks : ℕ} (h : ticks < 2 ^ 18) :
    pulseWord (pulseBit rising) (BitVec.ofNat 32 ticks) = durationWord rising ticks := by
  have hword : (BitVec.ofNat 32 ticks <<< 6) / 3 = BitVec.ofNat 32 (64 * ticks / 3) := by
    apply BitVec.eq_of_toNat_eq
    have h3 : (3 : BitVec 32).toNat = 3 := rfl
    rw [BitVec.toNat_udiv, BitVec.toNat_shiftLeft, BitVec.toNat_ofNat, BitVec.toNat_ofNat,
      Nat.shiftLeft_eq, h3, Nat.mod_eq_of_lt (by omega : ticks < 2 ^ 32),
      Nat.mod_eq_of_lt (by omega : ticks * 2 ^ 6 < 2 ^ 32),
      Nat.mod_eq_of_lt (by omega : 64 * ticks / 3 < 2 ^ 32), Nat.mul_comm]
    rfl
  unfold pulseWord durationWord
  rw [hword]
  cases rising with
  | true => rfl
  | false =>
      rw [if_neg (by decide), if_neg (by decide)]
      exact (BitVec.or_zero ..).symm

/-- Different numbers of ticks are different words. -/
theorem durationWord_inj {rising : Bool} {ticks ticks' : ℕ} (h : ticks < 2 ^ 18)
    (h' : ticks' < 2 ^ 18) (heq : durationWord rising ticks = durationWord rising ticks') :
    ticks = ticks' := by
  have hmask {n : ℕ} (hn : n < 2 ^ 18) :
      (durationWord rising n &&& IG_PULSE_MASK).toNat = 64 * n / 3 := by
    have hbit : (if rising then IG_PULSE_BIT else 0) &&& IG_PULSE_MASK = 0 := by
      cases rising <;> decide
    have hall : IG_PULSE_MASK.toNat = 2 ^ 24 - 1 := rfl
    have hzero : BitVec.ofNat 32 (64 * n / 3) &&& IG_PULSE_MASK ||| 0 =
        BitVec.ofNat 32 (64 * n / 3) &&& IG_PULSE_MASK := BitVec.or_zero ..
    rw [durationWord, BitVec.and_or_distrib_right, hbit, hzero, BitVec.toNat_and,
      BitVec.toNat_ofNat, hall, Nat.and_two_pow_sub_one_eq_mod]
    omega
  have hdiv := hmask h
  rw [heq, hmask h'] at hdiv
  omega

theorem faithful_iff (c : Capture) (h2 : 2 ≤ c.ticks) :
    Faithful c (pulseWord (pulseBit c.rising) (BitVec.ofNat 32 c.decodedTicks)) ↔
      2 ≤ c.ticks % 128 := by
  have hlt := c.ticks_lt
  have hdecoded : c.decodedTicks < 2 ^ 18 := by
    unfold Capture.decodedTicks remainderTicks
    split_ifs <;> omega
  rw [pulseWord_eq c.rising hdecoded]
  constructor
  · rintro ⟨ticks, hle, hge, heq⟩
    have hsame := durationWord_inj hdecoded (by omega) heq
    unfold Capture.decodedTicks remainderTicks at hsame
    split_ifs at hsame <;> omega
  · intro hr
    refine ⟨c.decodedTicks, ?_, ?_, rfl⟩ <;>
    · unfold Capture.decodedTicks remainderTicks
      split_ifs <;> omega

/-- **Captures come through to the host**, each as one word of its state and of its duration up
to one tick, exactly when there is one and none is within a tick above a multiple of 128. -/
theorem captures_faithful_iff {captures : List Capture} (halt : Alternating captures)
    (hfits : ∀ c ∈ captures, c.Fits) (hticks : ∀ c ∈ captures, 2 ≤ c.ticks) :
    (∃ words, iguanaDevToPulses (captures.flatMap Capture.bytes) = some words ∧
        List.Forall₂ Faithful captures words) ↔
      captures ≠ [] ∧ ∀ c ∈ captures, 2 ≤ c.ticks % 128 := by
  have hbytes : captures.flatMap Capture.bytes =
      captures.flatMap (fun c => captureBytes c.rising c.timer) :=
    List.flatMap_congr fun c hc => Capture.bytes_eq (hfits c hc)
  rw [hbytes]
  by_cases hne : captures = []
  · subst hne
    exact ⟨fun ⟨_, h, _⟩ => (nomatch h), fun h => absurd rfl h.1⟩
  · rw [iguanaDevToPulses_captures hne halt]
    have hall : List.Forall₂ Faithful captures (captures.map (fun c =>
        pulseWord (pulseBit c.rising) (BitVec.ofNat 32 c.decodedTicks))) ↔
          ∀ c ∈ captures, 2 ≤ c.ticks % 128 := by
      rw [List.forall₂_map_right_iff, List.forall₂_same]
      exact forall₂_congr fun c hc => faithful_iff c (hticks c hc)
    constructor
    · rintro ⟨words, hwords, hf⟩
      obtain rfl := Option.some.inj hwords
      exact ⟨hne, hall.mp hf⟩
    · exact fun h => ⟨_, rfl, hall.mpr h.2⟩

/-- A capture that finds a firmware with an empty receive buffer. -/
def firstCapture (rising : Bool) (timer : BitVec 16) : Capture :=
  ⟨rising, timer, rxReset (Mcu.cleared 0)⟩

theorem firstCapture_fits (rising : Bool) (timer : BitVec 16) : (firstCapture rising timer).Fits := by
  refine ⟨(rxReset_well (Mcu.cleared 0)).1, by change ¬repeating (rxReset (Mcu.cleared 0)); decide, ?_⟩
  have hlt := (firstCapture rising timer).ticks_lt
  have hfull : fullBytes timer = timer.toNat / 64 / 128 := fullBytes_eq timer
  have hempty : (rxReset (Mcu.cleared 0)).bufSize.toNat = 0 := rfl
  change (rxReset (Mcu.cleared 0)).bufSize.toNat + (captureBytes rising timer).length ≤ 150
  change timer.toNat / 64 < 1024 at hlt
  rw [captureBytes, List.length_append, List.length_replicate, List.length_singleton, hempty, hfull]
  omega

/-- A pulse of 10 ticks. -/
theorem captures_faithful_short : ∃ words,
    iguanaDevToPulses ([firstCapture true 640].flatMap Capture.bytes) = some words ∧
      List.Forall₂ Faithful [firstCapture true 640] words :=
  (captures_faithful_iff (List.isChain_singleton _)
    (by rintro c hc; rw [List.mem_singleton.mp hc]; exact firstCapture_fits true 640)
    (by decide)).mpr ⟨by decide, by decide⟩

/-- A pulse of 128 ticks comes out as one of 256. -/
theorem captures_unfaithful : (firstCapture true 8192).Fits ∧ (firstCapture true 8192).ticks = 128 ∧
    ¬∃ words, iguanaDevToPulses ([firstCapture true 8192].flatMap Capture.bytes) = some words ∧
      List.Forall₂ Faithful [firstCapture true 8192] words := by
  refine ⟨firstCapture_fits true 8192, by decide, fun ⟨words, hwords, hf⟩ => ?_⟩
  have hword : iguanaDevToPulses ([firstCapture true 8192].flatMap Capture.bytes) =
      some [pulseWord (pulseBit true) (BitVec.ofNat 32 (firstCapture true 8192).decodedTicks)] := by
    decide
  obtain rfl := Option.some.inj (hword.symm.trans hwords)
  have h := (faithful_iff (firstCapture true 8192) (by decide)).mp (List.forall₂_cons.mp hf).1
  exact absurd h (by decide)

end IguanaIR
