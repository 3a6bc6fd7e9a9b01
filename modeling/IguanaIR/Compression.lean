import IguanaIR.SendFormat
import IguanaIR.Carrier
import IguanaIR.Runs
import IguanaIR.Firmware.Transmit

/-! # Compressed transmission

With `COMPRESS_VER1` the encoder leaves out a pulse whose last byte would repeat that of the
pulse before, and the transmit loop puts the last pulse back in when a space follows a space.
This module compares what the device transmits for the two encodings of a signal.

The encoder looks at remainders modulo 127 and the device at the byte it sent last, so they agree
only when the pulse that is left out is a single byte, the space in front of it ends in a byte
that is not full, and the next entry that is not empty is a space (`RepeatsRestored`).  Then the
two signals are equal entry by entry (`sync_signal`, `pending_signal`).  Otherwise the compressed
one is on for a shorter time (`sync_onTime`, `pending_onTime`): a pulse that is left out is owed,
and what is put back later is never more than what is owed. -/

namespace IguanaIR

open Compress Firmware

/-! ### The signal of a list of bytes -/

/-- What is transmitted for the bytes, as a signal. -/
def signal (t : Tx) (bytes : List Byte) : List (Bool × ℕ) := Runs.merge (t.emit bytes)

/-- The time that it is on. -/
def onTime (t : Tx) (bytes : List Byte) : ℕ := Runs.total true (t.emit bytes)

/-- What `Tx` remembers after the bytes of an entry. -/
def afterEntry (inSpace : Bool) (total : ℕ) (t : Tx) : Tx :=
  if total = 0 then t
  else ⟨decide (total % 127 = 0), !inSpace,
    if inSpace then t.last else BitVec.ofNat 8 (lastByteCycles total)⟩

/-- The pulse put in before an entry, if there is one. -/
def insertion (inSpace : Bool) (total : ℕ) (t : Tx) : List (Bool × ℕ) :=
  if inSpace ∧ total ≠ 0 ∧ t.ready then [Tx.symbol t.last] else []

theorem next_eq (t : Tx) (a : Byte) :
    t.next a = ⟨a &&& 0x7F == 0x7F, Tx.isPulse a, if Tx.isPulse a then a else t.last⟩ := by
  unfold Tx.next Tx.send
  split_ifs <;> simp_all

/-- A byte of an entry reads as the entry's state and its length. -/
theorem symbol_length_byte {n : ℕ} (hn : n < 128) (inSpace : Bool) :
    Tx.symbol (BitVec.ofNat 8 n ||| stateBit inSpace) = (!inSpace, n) := by
  obtain ⟨hs, hl⟩ := length_state_byte n hn inSpace
  have hpulse : Tx.isPulse (BitVec.ofNat 8 n ||| stateBit inSpace) = !inSpace := by
    unfold Tx.isPulse
    rw [show (0x80 : Byte) = STATE_MASK from rfl, hs]
    cases inSpace <;> rfl
  unfold Tx.symbol
  rw [hpulse, show (0x7F : Byte) = LENGTH_MASK from rfl, hl]

theorem next_length_byte {n : ℕ} (hn : n < 128) (inSpace : Bool) (t : Tx) :
    t.next (BitVec.ofNat 8 n ||| stateBit inSpace) =
      ⟨decide (n = 127), !inSpace, if inSpace then t.last else BitVec.ofNat 8 n⟩ := by
  have hs := symbol_length_byte hn inSpace
  obtain ⟨hpulse, hlen⟩ := Prod.mk.inj hs
  have hfull : ((BitVec.ofNat 8 n ||| stateBit inSpace) &&& 0x7F == 0x7F) = decide (n = 127) := by
    rw [Bool.eq_iff_iff, beq_iff_eq, decide_eq_true_iff]
    constructor
    · intro h
      rw [h] at hlen
      exact hlen.symm
    · exact fun h => BitVec.eq_of_toNat_eq (hlen.trans h)
  rw [next_eq, hpulse, hfull]
  cases inSpace with
  | true => rfl
  | false => simp [stateBit]

/-- A byte of an entry, with the last pulse in front where one is put in. -/
theorem emit_length_byte {n : ℕ} (hn : n < 128) (inSpace : Bool) (t : Tx) (rest : List Byte) :
    t.emit ((BitVec.ofNat 8 n ||| stateBit inSpace) :: rest) =
      (if inSpace ∧ t.ready then [Tx.symbol t.last] else []) ++ (!inSpace, n) ::
        (Tx.mk (decide (n = 127)) (!inSpace)
          (if inSpace then t.last else BitVec.ofNat 8 n)).emit rest := by
  have hs := symbol_length_byte hn inSpace
  have hpulse := congrArg Prod.fst hs
  simp only [Tx.symbol] at hpulse
  rw [Tx.emit, next_length_byte hn, hs, hpulse, Bool.not_not]
  simp only [Bool.and_eq_true]

/-- Full bytes and then one more of the same state. -/
theorem emit_run (inSpace : Bool) {n : ℕ} (hn : n < 128) (rest : List Byte) :
    ∀ (k : ℕ) (t : Tx),
      t.emit (List.replicate k (LENGTH_MASK ||| stateBit inSpace) ++
          (BitVec.ofNat 8 n ||| stateBit inSpace) :: rest) =
        (if inSpace ∧ t.ready then [Tx.symbol t.last] else []) ++
          (List.replicate k (!inSpace, 127) ++ (!inSpace, n) ::
            (Tx.mk (decide (n = 127)) (!inSpace)
              (if inSpace then t.last else BitVec.ofNat 8 n)).emit rest)
  | 0, t => emit_length_byte hn inSpace t rest
  | k + 1, t => by
      -- behind a full byte nothing is put in
      have hfull : LENGTH_MASK = BitVec.ofNat 8 127 := rfl
      rw [List.replicate_succ, List.cons_append, hfull, emit_length_byte (by omega), ← hfull,
        emit_run inSpace hn rest k, List.replicate_succ, List.cons_append]
      cases inSpace <;> simp [Tx.ready]

/-- What the bytes of an entry send. -/
theorem emit_entry (inSpace : Bool) (total : ℕ) (t : Tx) (rest : List Byte) :
    t.emit (entryBlock inSpace total ++ rest) = insertion inSpace total t ++
      ((entryBlock inSpace total).map Tx.symbol ++ (afterEntry inSpace total t).emit rest) := by
  rcases Nat.eq_zero_or_pos total with rfl | hpos
  · simp [insertion, afterEntry]
  have hne : total ≠ 0 := by omega
  have hle := lastByteCycles_le total
  have h127 : (lastByteCycles total = 127) = (total % 127 = 0) := by
    rw [lastByteCycles_eq_max]
  rw [entryBlock_of_ne inSpace hne, List.append_assoc, List.singleton_append,
    emit_run inSpace (by omega), List.map_append, List.map_replicate, List.map_singleton,
    symbol_length_byte (by omega), show LENGTH_MASK = BitVec.ofNat 8 127 from rfl,
    symbol_length_byte (by omega), insertion, afterEntry, if_neg hne]
  simp [hne, h127]

/-- The symbols of an entry make up its length. -/
theorem merge_entry (inSpace : Bool) (total : ℕ) (l : List (Bool × ℕ)) :
    Runs.merge ((entryBlock inSpace total).map Tx.symbol ++ l) =
      Runs.push (!inSpace) total (Runs.merge l) := by
  have hmap : (entryBlock inSpace total).map Tx.symbol =
      ((entryBlock inSpace total).map (fun b => (b &&& LENGTH_MASK).toNat)).map
        (fun n => (!inSpace, n)) := by
    rw [List.map_map]
    apply List.map_congr_left
    intro b hb
    obtain ⟨n, -, hn, rfl⟩ := mem_entryBlock hb
    rw [symbol_length_byte hn, Function.comp_apply, (length_state_byte n hn inSpace).2]
  rw [hmap, Runs.merge_same_append, entryBlock_sum]

theorem signal_entry (inSpace : Bool) (total : ℕ) (t : Tx) (rest : List Byte) :
    signal t (entryBlock inSpace total ++ rest) =
      (insertion inSpace total t).foldr (fun p acc => Runs.push p.1 p.2 acc)
        (Runs.push (!inSpace) total (signal (afterEntry inSpace total t) rest)) := by
  rw [signal, emit_entry, Runs.merge_append, merge_entry]
  rfl

theorem onTime_entry (inSpace : Bool) (total : ℕ) (t : Tx) (rest : List Byte) :
    onTime t (entryBlock inSpace total ++ rest) = Runs.total true (insertion inSpace total t) +
      ((if inSpace then 0 else total) + onTime (afterEntry inSpace total t) rest) := by
  have hblock : Runs.total true ((entryBlock inSpace total).map Tx.symbol) =
      if inSpace then 0 else total := by
    have h := congrArg (Runs.total true) (merge_entry inSpace total [])
    rw [List.append_nil, Runs.total_merge, Runs.total_push] at h
    cases inSpace <;> simpa using h
  rw [onTime, emit_entry, Runs.total_append, Runs.total_append, hblock]
  rfl

/-! ### The condition -/

/-- Is the first entry that is not empty a space?  The list starts with a space. -/
def spaceFirst : List ℕ → Prop
  | [] => False
  | [s] => s ≠ 0
  | s :: p :: rest => s ≠ 0 ∨ p = 0 ∧ spaceFirst rest

/-- Does the pulse `c` end in the byte that the pulse `p` ended in, without being full? -/
def repeats (p c : ℕ) : Prop := p % 127 ≠ 0 ∧ c % 127 = p % 127

/-- Every pulse that repeats the one before it, and is not the last entry, is one that the
device puts back: a single byte, behind a space that ends in a byte that is not full, and in
front of a space. -/
def RepeatsRestored : List ℕ → Prop
  | p :: d :: c :: post =>
      (repeats p c → post ≠ [] → c < 127 ∧ d % 127 ≠ 0 ∧ spaceFirst post) ∧
        RepeatsRestored (c :: post)
  | _ => True

instance decidableSpaceFirst : DecidablePred spaceFirst
  | [] => isFalse id
  | [s] => inferInstanceAs (Decidable (s ≠ 0))
  | s :: p :: rest =>
      have := decidableSpaceFirst rest
      inferInstanceAs (Decidable (s ≠ 0 ∨ p = 0 ∧ spaceFirst rest))

instance (p c : ℕ) : Decidable (repeats p c) := inferInstanceAs (Decidable (_ ∧ _))

instance decidableRepeatsRestored : DecidablePred RepeatsRestored
  | p :: d :: c :: post =>
      have := decidableRepeatsRestored (c :: post)
      inferInstanceAs (Decidable ((repeats p c → post ≠ [] → c < 127 ∧ d % 127 ≠ 0 ∧
        spaceFirst post) ∧ RepeatsRestored (c :: post)))
  | [] => isTrue trivial
  | [_] => isTrue trivial
  | [_, _] => isTrue trivial

/-- The condition as the loop meets it: `lastCycles` from the pulse before, `d` the space in
between, and a list that starts with a pulse. -/
def restoredFrom (lastCycles d : ℕ) : List ℕ → Prop
  | c :: s :: post =>
      (lastByteCycles c ≠ 127 → lastByteCycles c = lastCycles →
        c < 127 ∧ d % 127 ≠ 0 ∧ spaceFirst (s :: post)) ∧ restoredFrom (lastByteCycles c) s post
  | _ => True

/-- The same for a list that starts with a space. -/
def restoredBehind (lastCycles : ℕ) : List ℕ → Prop
  | [] => True
  | s :: post => restoredFrom lastCycles s post

theorem repeats_iff (p c : ℕ) :
    repeats p c ↔ lastByteCycles c ≠ 127 ∧ lastByteCycles c = lastByteCycles p := by
  unfold repeats
  by_cases hp : p % 127 = 0
  · rw [lastByteCycles_eq_max.mpr hp]
    tauto
  · have hmod := Nat.mod_lt p (show 0 < 127 by decide)
    by_cases hc : c % 127 = 0
    · rw [lastByteCycles_eq_max.mpr hc, lastByteCycles_of_ne hp]
      constructor
      · rintro ⟨-, h⟩
        omega
      · rintro ⟨h, -⟩
        exact absurd rfl h
    · have hmod' := Nat.mod_lt c (show 0 < 127 by decide)
      rw [lastByteCycles_of_ne hp, lastByteCycles_of_ne hc]
      omega

theorem restoredFrom_lastByteCycles : ∀ (p d : ℕ) (rest : List ℕ),
    restoredFrom (lastByteCycles p) d rest ↔ RepeatsRestored (p :: d :: rest)
  | p, d, [] => by simp [restoredFrom, RepeatsRestored]
  | p, d, [c] => by simp [restoredFrom, RepeatsRestored]
  | p, d, c :: s :: post => by
      rw [restoredFrom, RepeatsRestored, repeats_iff, restoredFrom_lastByteCycles c s post]
      simp only [ne_eq, reduceCtorEq, not_false_eq_true, true_imp_iff, and_imp]

/-- Nothing repeats the start of the signal. -/
theorem restoredFrom_zero (d : ℕ) (totals : List ℕ) :
    restoredFrom 0 d totals ↔ RepeatsRestored totals := by
  match totals with
  | [] => simp [restoredFrom, RepeatsRestored]
  | [c] => simp [restoredFrom, RepeatsRestored]
  | c :: s :: post =>
      have hpos := lastByteCycles_pos c
      rw [restoredFrom, restoredFrom_lastByteCycles]
      simp only [and_iff_right_iff_imp]
      intro _ _ h
      omega

/-! ### Both encodings, entry by entry -/

theorem pulsesLoop_space (compress : Compress) (lastCycles s : ℕ) (post : List ℕ) :
    pulsesLoop compress true lastCycles (s :: post) =
      entryBlock true s ++ pulsesLoop compress false lastCycles post := by
  rw [pulsesLoop_cons_keep (by simp [dropsPulse])]
  simp

theorem pulsesLoop_zero (compress : Compress) (lastCycles : ℕ) (post : List ℕ) :
    pulsesLoop compress true lastCycles (0 :: post) = pulsesLoop compress false lastCycles post := by
  rw [pulsesLoop_space, entryBlock_zero, List.nil_append]

theorem pulsesLoop_drop {c : ℕ} (h : lastByteCycles c ≠ 127) (s : ℕ) (post : List ℕ) :
    pulsesLoop COMPRESS_VER1 false (lastByteCycles c) (c :: s :: post) =
      pulsesLoop COMPRESS_VER1 true (lastByteCycles c) (s :: post) := by
  rw [pulsesLoop_cons_drop]
  · rfl
  · simpa [dropsPulse, MAX_DATA_BYTE] using h

theorem pulsesLoop_keep {lastCycles c : ℕ}
    (h : lastByteCycles c ≠ 127 → lastByteCycles c ≠ lastCycles) (rest : List ℕ) :
    pulsesLoop COMPRESS_VER1 false lastCycles (c :: rest) =
      entryBlock false c ++ pulsesLoop COMPRESS_VER1 true (lastByteCycles c) rest := by
  rw [pulsesLoop_cons_keep]
  · simp
  · by_cases h' : lastByteCycles c = 127 <;> simp [dropsPulse, MAX_DATA_BYTE, h', h]

theorem pulsesLoop_last (lastCycles c : ℕ) :
    pulsesLoop COMPRESS_VER1 false lastCycles [c] = entryBlock false c := by
  rw [pulsesLoop_cons_keep (by simp [dropsPulse])]
  simp [pulsesLoop]

@[simp] theorem insertion_pulse (total : ℕ) (t : Tx) : insertion false total t = [] := by
  simp [insertion]

/-- What the device remembers agrees with `lastCycles`, where that is a length that a later
pulse can repeat: it is the last pulse, and the device is ready to put it in unless the space
`d` in between ended in a full byte, or was empty. -/
def Remembers (lastCycles d : ℕ) (t : Tx) : Prop :=
  lastCycles ≠ 0 → lastCycles ≠ 127 →
    lastCycles < 127 ∧ t.last = BitVec.ofNat 8 lastCycles ∧ (t.ready = true ↔ d % 127 ≠ 0)

/-- Behind a pulse and a space that were both sent. -/
theorem remembers_after (c s : ℕ) (t : Tx) :
    Remembers (lastByteCycles c) s (afterEntry true s (afterEntry false c t)) := by
  intro _ h127
  have hle := lastByteCycles_le c
  have hmod : c % 127 ≠ 0 := fun h => h127 (lastByteCycles_eq_max.mpr h)
  have hc : c ≠ 0 := by
    rintro rfl
    exact hmod rfl
  refine ⟨by omega, ?_, ?_⟩
  · by_cases hs : s = 0 <;> simp [afterEntry, hc, hs]
  · by_cases hs : s = 0 <;> simp [afterEntry, hc, hs, Tx.ready]

/-- Behind a space that was sent, with the pulse of `lastCycles` in front of it. -/
theorem remembers_space {lastCycles : ℕ} (s : ℕ) {t : Tx} (hs : s ≠ 0) (hlt : lastCycles < 127)
    (hl : t.last = BitVec.ofNat 8 lastCycles) : Remembers lastCycles s (afterEntry true s t) := by
  intro _ _
  refine ⟨hlt, ?_, ?_⟩ <;> simp [afterEntry, hs, hl, Tx.ready]

/-! ### Equal signals -/

/-- The last pulse, as the device puts it in. -/
theorem symbol_last {c : ℕ} (hc : c < 127) {t : Tx} (hl : t.last = BitVec.ofNat 8 c) :
    Tx.symbol t.last = (true, c) := by
  have h := symbol_length_byte (n := c) (by omega) false
  rw [hl]
  simpa [stateBit] using h

/-- A pulse of a single byte is remembered as it is. -/
theorem afterEntry_short {c : ℕ} (hpos : 0 < c) (hc : c < 127) (t : Tx) :
    afterEntry false c t = ⟨false, true, BitVec.ofNat 8 c⟩ := by
  have hmod : c % 127 = c := Nat.mod_eq_of_lt hc
  have hne : c % 127 ≠ 0 := by omega
  have hb : lastByteCycles c = c := by rw [lastByteCycles_of_ne hne, hmod]
  have h₀ : c ≠ 0 := by omega
  simp [afterEntry, h₀, hne, hb]

/-- A space puts the pulse back. -/
theorem putBack_signal {lastCycles last₀ c s : ℕ} {post : List ℕ} {t : Tx} (hready : t.ready = true)
    (hl : t.last = BitVec.ofNat 8 c) (hlt : c < 127) (hs : s ≠ 0)
    (h : signal (afterEntry true s t) (pulsesLoop COMPRESS_VER1 false lastCycles post) =
      signal (afterEntry true s t) (pulsesLoop COMPRESS_VER0 false last₀ post)) :
    signal t (pulsesLoop COMPRESS_VER1 true lastCycles (s :: post)) =
      Runs.push true c (signal ⟨false, true, BitVec.ofNat 8 c⟩
        (pulsesLoop COMPRESS_VER0 true last₀ (s :: post))) := by
  have hafter : afterEntry true s ⟨false, true, BitVec.ofNat 8 c⟩ = afterEntry true s t := by
    simp [afterEntry, hs, hl]
  have hins : insertion true s t = [(true, c)] := by
    rw [insertion, if_pos ⟨rfl, hs, hready⟩, symbol_last hlt hl]
  have hins₀ : insertion true s ⟨false, true, BitVec.ofNat 8 c⟩ = [] := by
    simp [insertion, Tx.ready]
  rw [pulsesLoop_space, pulsesLoop_space, signal_entry, signal_entry, hafter, hins, hins₀, h]
  rfl

mutual

/-- Both encodings send the same signal while the device remembers the same for both. -/
theorem sync_signal (lastCycles last₀ d : ℕ) : ∀ (rest : List ℕ) (t : Tx),
    Remembers lastCycles d t → restoredFrom lastCycles d rest →
      signal t (pulsesLoop COMPRESS_VER1 false lastCycles rest) =
        signal t (pulsesLoop COMPRESS_VER0 false last₀ rest)
  | [], _, _, _ => rfl
  | [c], t, _, _ => by
      rw [pulsesLoop_last, pulsesLoop_ver0_cons]
      simp [pulsesLoop]
  | c :: s :: post, t, hr, hc => by
      rw [restoredFrom] at hc
      by_cases hdrop : lastByteCycles c ≠ 127 ∧ lastByteCycles c = lastCycles
      · -- the pulse is left out, and owed until the next space
        obtain ⟨h127, hlast⟩ := hdrop
        obtain ⟨hlt, hd, hspace⟩ := hc.1 h127 hlast
        have hpos := lastByteCycles_pos c
        have hb : lastByteCycles c = c := by
          rw [lastByteCycles, MAX_DATA_BYTE] at h127 ⊢
          split_ifs at h127 ⊢ with h
          · exact absurd rfl h127
          · omega
        obtain ⟨-, hl, hready⟩ := hr (by omega) (by omega)
        subst hlast
        rw [hb] at hl hpos
        rw [pulsesLoop_drop h127, pulsesLoop_ver0_cons, signal_entry, insertion_pulse,
          pending_signal (lastByteCycles c) last₀ (s :: post) t c (hready.mpr hd) hl hpos hlt
            (Or.inr hb) hspace hc.2,
          afterEntry_short hpos hlt]
        rfl
      · -- the pulse is sent, and so is the space
        have hkeep : lastByteCycles c ≠ 127 → lastByteCycles c ≠ lastCycles :=
          fun h₁ h₂ => hdrop ⟨h₁, h₂⟩
        rw [pulsesLoop_keep hkeep, pulsesLoop_ver0_cons, signal_entry, signal_entry,
          pulsesLoop_space, Bool.not_false, pulsesLoop_space, signal_entry, signal_entry,
          sync_signal (lastByteCycles c) last₀ s post _ (remembers_after c s t) hc.2]
  termination_by rest => rest.length

/-- Once a pulse `c` is left out, the next space puts it back. -/
theorem pending_signal (lastCycles last₀ : ℕ) : ∀ (rest : List ℕ) (t : Tx) (c : ℕ),
    t.ready = true → t.last = BitVec.ofNat 8 c → 0 < c → c < 127 →
      (lastCycles = 127 ∨ lastCycles = c) → spaceFirst rest → restoredBehind lastCycles rest →
      signal t (pulsesLoop COMPRESS_VER1 true lastCycles rest) =
        Runs.push true c (signal ⟨false, true, BitVec.ofNat 8 c⟩
          (pulsesLoop COMPRESS_VER0 true last₀ rest))
  | [], _, _, _, _, _, _, _, hs, _ => hs.elim
  | [s], t, c, hready, hl, _, hlt, _, hs, _ => putBack_signal hready hl hlt hs rfl
  | s :: p :: rest, t, c, hready, hl, hpos, hlt, hlast, hspace, hc => by
      by_cases hs : s = 0
      · -- an empty space and an empty pulse send nothing
        obtain ⟨hp, hspace'⟩ : p = 0 ∧ spaceFirst rest := by
          rcases hspace with h | h
          · exact absurd hs h
          · exact h
        have h0 : lastByteCycles 0 = 127 := rfl
        have hc' : restoredBehind 127 rest := by
          rw [hp] at hc
          cases rest with
          | nil => trivial
          | cons s' post' => exact hc.2
        rw [hs, hp, pulsesLoop_space, pulsesLoop_space, entryBlock_zero, List.nil_append,
          List.nil_append, pulsesLoop_keep (fun h => absurd h0 h), pulsesLoop_ver0_cons,
          entryBlock_zero, List.nil_append, List.nil_append, h0,
          pending_signal 127 last₀ rest t c hready hl hpos hlt (Or.inl rfl) hspace' hc']
        rfl
      · have hr : Remembers lastCycles s (afterEntry true s t) := by
          intro h₀ h127
          have hlc : lastCycles = c := by tauto
          rw [hlc] at h₀ h127 ⊢
          exact remembers_space s hs hlt hl h₀ h127
        exact putBack_signal hready hl hlt hs (sync_signal lastCycles last₀ s (p :: rest) _ hr hc)
  termination_by rest => rest.length

end

/-! ### Unequal signals -/

/-- `n` is at most `m`, and as much only if `P` holds. -/
def AtMost (n m : ℕ) (P : Prop) : Prop := n ≤ m ∧ (m ≤ n → P)

/-- The time that the put-in pulse adds. -/
theorem onTime_insertion {c s : ℕ} (hlt : c < 127) (hs : s ≠ 0) {t : Tx}
    (hl : t.last = BitVec.ofNat 8 c) :
    Runs.total true (insertion true s t) = if t.ready then c else 0 := by
  rw [insertion, symbol_last hlt hl]
  cases t.ready <;> simp [hs]

/-- A space puts back at most what is owed. -/
theorem putBack_onTime {lastCycles last₀ c o s : ℕ} {post : List ℕ} {t : Tx}
    (hl : t.last = BitVec.ofNat 8 c) (hpos : 0 < c) (hlt : c < 127) (ho : c ≤ o) (hs : s ≠ 0)
    (h : AtMost (onTime (afterEntry true s t) (pulsesLoop COMPRESS_VER1 false lastCycles post))
      (onTime (afterEntry true s t) (pulsesLoop COMPRESS_VER0 false last₀ post))
      (restoredFrom lastCycles s post)) :
    AtMost (onTime t (pulsesLoop COMPRESS_VER1 true lastCycles (s :: post)))
      (o + onTime ⟨false, true, BitVec.ofNat 8 c⟩ (pulsesLoop COMPRESS_VER0 true last₀ (s :: post)))
      (o = c ∧ t.ready = true ∧ restoredFrom lastCycles s post) := by
  have hafter : afterEntry true s ⟨false, true, BitVec.ofNat 8 c⟩ = afterEntry true s t := by
    simp [afterEntry, hs, hl]
  have hins₀ : insertion true s ⟨false, true, BitVec.ofNat 8 c⟩ = [] := by
    simp [insertion, Tx.ready]
  rw [pulsesLoop_space, pulsesLoop_space, onTime_entry, onTime_entry, hafter, hins₀,
    onTime_insertion hlt hs hl, Runs.total_nil, if_pos rfl]
  obtain ⟨hle, heq⟩ := h
  cases hready : t.ready with
  | true =>
      rw [if_pos rfl]
      exact ⟨by omega, fun hge => ⟨by omega, rfl, heq (by omega)⟩⟩
  | false =>
      rw [if_neg (by simp)]
      exact ⟨by omega, fun hge => by omega⟩

/-- A space that nothing is owed for. -/
theorem space_onTime {lastCycles last₀ s : ℕ} {post : List ℕ} {t : Tx} {P : Prop}
    (h : AtMost (onTime (afterEntry true s t) (pulsesLoop COMPRESS_VER1 false lastCycles post))
      (onTime (afterEntry true s t) (pulsesLoop COMPRESS_VER0 false last₀ post)) P) :
    AtMost (onTime t (pulsesLoop COMPRESS_VER1 true lastCycles (s :: post)))
      (onTime t (pulsesLoop COMPRESS_VER0 true last₀ (s :: post))) P := by
  rw [pulsesLoop_space, pulsesLoop_space, onTime_entry, onTime_entry]
  obtain ⟨hle, heq⟩ := h
  exact ⟨by omega, fun hge => heq (by omega)⟩

/-- A pulse that is left out owes what it would have taken. -/
theorem drop_onTime {last₀ c d s : ℕ} {post : List ℕ} {t : Tx} (h127 : lastByteCycles c ≠ 127)
    (hready : t.ready = true ↔ d % 127 ≠ 0)
    (h : AtMost (onTime t (pulsesLoop COMPRESS_VER1 true (lastByteCycles c) (s :: post)))
      (c + onTime ⟨false, true, BitVec.ofNat 8 (lastByteCycles c)⟩
        (pulsesLoop COMPRESS_VER0 true last₀ (s :: post)))
      (c = lastByteCycles c ∧ t.ready = true ∧ spaceFirst (s :: post) ∧
        restoredFrom (lastByteCycles c) s post)) :
    AtMost (onTime t (pulsesLoop COMPRESS_VER1 false (lastByteCycles c) (c :: s :: post)))
      (onTime t (pulsesLoop COMPRESS_VER0 false last₀ (c :: s :: post)))
      (restoredFrom (lastByteCycles c) d (c :: s :: post)) := by
  have hmod : c % 127 ≠ 0 := fun h => h127 (lastByteCycles_eq_max.mpr h)
  have hc : c ≠ 0 := by
    rintro rfl
    exact hmod rfl
  have hafter : afterEntry false c t = ⟨false, true, BitVec.ofNat 8 (lastByteCycles c)⟩ := by
    simp [afterEntry, hc, hmod]
  rw [pulsesLoop_drop h127, pulsesLoop_ver0_cons, onTime_entry, hafter, insertion_pulse,
    Runs.total_nil, if_neg (by simp), Nat.zero_add]
  refine ⟨h.1, fun hge => ?_⟩
  obtain ⟨hshort, hr, hspace, hpost⟩ := h.2 hge
  have hle := lastByteCycles_le c
  exact ⟨fun _ _ => ⟨by omega, hready.mp hr, hspace⟩, hpost⟩

/-- In front of a pulse that is not empty, what is owed is lost. -/
theorem lost_onTime {lastCycles last₀ c o p : ℕ} {rest : List ℕ} {t : Tx} (hp : p ≠ 0)
    (hpos : 0 < c) (ho : c ≤ o) (hlast : lastCycles = 127 ∨ lastCycles = c)
    (hpending : lastByteCycles p = c →
      onTime t (pulsesLoop COMPRESS_VER1 true lastCycles rest) <
        o + p + onTime ⟨false, true, BitVec.ofNat 8 c⟩ (pulsesLoop COMPRESS_VER0 true last₀ rest))
    (hbehind : onTime (afterEntry false p t)
        (pulsesLoop COMPRESS_VER1 true (lastByteCycles p) rest) ≤
      onTime (afterEntry false p t) (pulsesLoop COMPRESS_VER0 true last₀ rest)) :
    onTime t (pulsesLoop COMPRESS_VER1 false lastCycles (p :: rest)) <
      o + onTime ⟨false, true, BitVec.ofNat 8 c⟩
        (pulsesLoop COMPRESS_VER0 false last₀ (p :: rest)) := by
  have hafter : afterEntry false p ⟨false, true, BitVec.ofNat 8 c⟩ = afterEntry false p t := by
    simp [afterEntry, hp]
  rw [pulsesLoop_ver0_cons, onTime_entry, insertion_pulse, hafter, Runs.total_nil,
    if_neg (by simp)]
  by_cases hdrop : (lastByteCycles p ≠ 127 ∧ lastByteCycles p = lastCycles) ∧ rest ≠ []
  · -- it is left out as well
    obtain ⟨⟨h127, rfl⟩, hrest⟩ := hdrop
    have hc : lastByteCycles p = c := by tauto
    have hmod : p % 127 ≠ 0 := fun h => h127 (lastByteCycles_eq_max.mpr h)
    have hstate : afterEntry false p t = ⟨false, true, BitVec.ofNat 8 c⟩ := by
      simp [afterEntry, hp, hmod, hc]
    obtain ⟨s, post, rfl⟩ := List.exists_cons_of_ne_nil hrest
    have := hpending hc
    rw [pulsesLoop_drop h127, hstate, Bool.not_false]
    omega
  · have hkeep : pulsesLoop COMPRESS_VER1 false lastCycles (p :: rest) =
        entryBlock false p ++ pulsesLoop COMPRESS_VER1 true (lastByteCycles p) rest := by
      by_cases hrest : rest = []
      · rw [hrest, pulsesLoop_last, pulsesLoop, List.append_nil]
      · exact pulsesLoop_keep (fun h₁ h₂ => hdrop ⟨⟨h₁, h₂⟩, hrest⟩) rest
    rw [hkeep, onTime_entry, insertion_pulse, Runs.total_nil, if_neg (by simp), Bool.not_false]
    omega

mutual

/-- The compressed signal is never on for longer, and as long only under the condition. -/
theorem sync_onTime (lastCycles last₀ d : ℕ) : ∀ (rest : List ℕ) (t : Tx),
    Remembers lastCycles d t →
      AtMost (onTime t (pulsesLoop COMPRESS_VER1 false lastCycles rest))
        (onTime t (pulsesLoop COMPRESS_VER0 false last₀ rest)) (restoredFrom lastCycles d rest)
  | [], _, _ => ⟨le_refl _, fun _ => trivial⟩
  | [c], t, _ => by
      rw [pulsesLoop_last, pulsesLoop_ver0_cons]
      simp [pulsesLoop, restoredFrom, AtMost]
  | c :: s :: post, t, hr => by
      by_cases hdrop : lastByteCycles c ≠ 127 ∧ lastByteCycles c = lastCycles
      · obtain ⟨h127, rfl⟩ := hdrop
        have hpos := lastByteCycles_pos c
        obtain ⟨hlt, hl, hready⟩ := hr (by omega) h127
        have hle : lastByteCycles c ≤ c := by
          have hmod : c % 127 ≠ 0 := fun h => h127 (lastByteCycles_eq_max.mpr h)
          rw [lastByteCycles_of_ne hmod]
          exact Nat.mod_le c 127
        exact drop_onTime h127 hready
          (pending_onTime (lastByteCycles c) last₀ (s :: post) t (lastByteCycles c) c hl hpos hlt hle
            (Or.inr rfl))
      · have hkeep : lastByteCycles c ≠ 127 → lastByteCycles c ≠ lastCycles :=
          fun h₁ h₂ => hdrop ⟨h₁, h₂⟩
        obtain ⟨hle, heq⟩ := behind_onTime last₀ (s :: post) c t
        rw [pulsesLoop_keep hkeep, pulsesLoop_ver0_cons, onTime_entry, onTime_entry,
          Bool.not_false]
        exact ⟨by omega, fun hge => ⟨fun h₁ h₂ => absurd h₂ (hkeep h₁), heq (by omega)⟩⟩
  termination_by rest => rest.length

/-- Behind a pulse that both encodings send. -/
theorem behind_onTime (last₀ : ℕ) : ∀ (rest : List ℕ) (c : ℕ) (t : Tx),
    AtMost (onTime (afterEntry false c t) (pulsesLoop COMPRESS_VER1 true (lastByteCycles c) rest))
      (onTime (afterEntry false c t) (pulsesLoop COMPRESS_VER0 true last₀ rest))
      (restoredBehind (lastByteCycles c) rest)
  | [], _, _ => ⟨le_refl _, fun _ => trivial⟩
  | s :: post, c, t =>
      space_onTime (sync_onTime (lastByteCycles c) last₀ s post _ (remembers_after c s t))
  termination_by rest => rest.length

/-- A pulse that is left out is owed, and more is never put back. -/
theorem pending_onTime (lastCycles last₀ : ℕ) : ∀ (rest : List ℕ) (t : Tx) (c o : ℕ),
    t.last = BitVec.ofNat 8 c → 0 < c → c < 127 → c ≤ o → (lastCycles = 127 ∨ lastCycles = c) →
      AtMost (onTime t (pulsesLoop COMPRESS_VER1 true lastCycles rest))
        (o + onTime ⟨false, true, BitVec.ofNat 8 c⟩ (pulsesLoop COMPRESS_VER0 true last₀ rest))
        (o = c ∧ t.ready = true ∧ spaceFirst rest ∧ restoredBehind lastCycles rest)
  | [], t, c, o, _, hpos, _, ho, _ => by
      have h : onTime t (pulsesLoop COMPRESS_VER1 true lastCycles []) = 0 := rfl
      rw [h]
      exact ⟨by omega, fun hge => by omega⟩
  | s :: [], t, c, o, hl, hpos, hlt, ho, _ => by
      by_cases hs : s = 0
      · rw [hs, pulsesLoop_space, entryBlock_zero]
        have h : onTime t ([] ++ pulsesLoop COMPRESS_VER1 false lastCycles []) = 0 := rfl
        rw [h]
        exact ⟨by omega, fun hge => by omega⟩
      · obtain ⟨hle, heq⟩ := @putBack_onTime lastCycles last₀ c o s [] t
          hl hpos hlt ho hs ⟨le_refl _, fun _ => trivial⟩
        exact ⟨hle, fun hge => ⟨(heq hge).1, (heq hge).2.1, hs, trivial⟩⟩
  | s :: p :: rest, t, c, o, hl, hpos, hlt, ho, hlast => by
      by_cases hs : s = 0
      · rw [hs, pulsesLoop_zero, pulsesLoop_zero]
        by_cases hp : p = 0
        · -- an empty space and an empty pulse send nothing
          have h0 : lastByteCycles 0 = 127 := rfl
          obtain ⟨hle, heq⟩ := pending_onTime 127 last₀ rest t c o hl hpos hlt ho (Or.inl rfl)
          rw [hp, pulsesLoop_keep (fun h => absurd h0 h), pulsesLoop_ver0_cons, entryBlock_zero,
            List.nil_append, List.nil_append, h0]
          refine ⟨hle, fun hge => ?_⟩
          obtain ⟨hoc, hready, hspace, hrest⟩ := heq hge
          refine ⟨hoc, hready, Or.inr ⟨rfl, hspace⟩, ?_⟩
          cases rest with
          | nil => trivial
          | cons s' post' => exact ⟨fun h => absurd h0 h, hrest⟩
        · -- the next pulse comes first, and what is owed is lost
          have hlost := @lost_onTime lastCycles last₀ c o p rest t hp hpos ho hlast
            (fun _ => by
              obtain ⟨hle, heq⟩ := pending_onTime lastCycles last₀ rest t c (o + p) hl hpos hlt
                (by omega) hlast
              exact lt_of_le_of_ne hle fun he => by
                have := (heq he.ge).1
                omega)
            (behind_onTime last₀ rest p t).1
          exact ⟨by omega, fun hge => by omega⟩
      · have hr : Remembers lastCycles s (afterEntry true s t) := by
          intro h₀ h127
          have hlc : lastCycles = c := by tauto
          rw [hlc] at h₀ h127 ⊢
          exact remembers_space s hs hlt hl h₀ h127
        obtain ⟨hle, heq⟩ := putBack_onTime hl hpos hlt ho hs
          (sync_onTime lastCycles last₀ s (p :: rest) _ hr)
        exact ⟨hle, fun hge => ⟨(heq hge).1, (heq hge).2.1, Or.inl hs, (heq hge).2.2⟩⟩
  termination_by rest => rest.length

end

/-! ### What the device transmits -/

/-- The signal that the device transmits when these bytes were sent to it. -/
def transmitted (m : Mcu) (bytes : List Byte) : List (Bool × ℕ) :=
  Runs.merge ((transmitCode (m.load bytes)).ir.map onOff)

theorem transmitted_eq_signal (m : Mcu) (hq : ¬repeating m) {bytes : List Byte}
    (hpos : 0 < bytes.length) (h : bytes.length ≤ 150) :
    transmitted m bytes = signal (txInit m) bytes := by
  have h₃ := m.load_ram h (x := tmp3) (by decide) (by decide)
  have hl := m.load_ram h (x := lastPulse) (by decide) (by decide)
  have hinit : txInit (m.load bytes) = txInit m := by simp [txInit, h₃, hl]
  have hir : (m.load bytes).ir = [] := rfl
  have hq' : ¬repeating (m.load bytes) := by
    have hflags : ∀ (l : List Byte) (m : Mcu) (a : Byte), (m.writeAll a l).rxFlags = m.rxFlags := by
      intro l
      induction l with
      | nil => intro m a; rfl
      | cons b rest ih => intro m a; exact ih _ _
    rw [repeating]
    show ¬(m.writeAll buffer bytes).rxFlags &&& RX_REPEATER_FLAG ≠ 0
    rw [hflags]
    exact hq
  rw [transmitted, transmitCode_ir (m.load_loaded hpos h) hq', hinit, hir, List.map_nil,
    List.nil_append, signal]

/-- The signals are equal exactly under the condition. -/
theorem signal_eq_iff (t : Tx) (totals : List ℕ) :
    signal t (pulsesLoop COMPRESS_VER1 false 0 totals) =
        signal t (pulsesLoop COMPRESS_VER0 false 0 totals) ↔ RepeatsRestored totals := by
  have hr : Remembers 0 0 t := fun h => absurd rfl h
  rw [← restoredFrom_zero 0]
  constructor
  · intro h
    have htime := congrArg (Runs.total true) h
    rw [signal, signal, Runs.total_merge, Runs.total_merge] at htime
    exact (sync_onTime 0 0 0 totals t hr).2 (le_of_eq htime.symm)
  · exact sync_signal 0 0 0 totals t hr

/-- **Compressed transmission means the same as uncompressed transmission** exactly when every
pulse that is left out is one that the device puts back. -/
theorem compressed_transmission_iff (fl : ℚ → ℚ) (carrier : Carrier) (sendCode : List (BitVec 32))
    (m : Mcu) (hq : ¬repeating m)
    (h₀ : (pulsesToIguanaSend fl carrier.hz sendCode COMPRESS_VER0).length ∈ Set.Icc 1 150)
    (h₁ : (pulsesToIguanaSend fl carrier.hz sendCode COMPRESS_VER1).length ∈ Set.Icc 1 150) :
    transmitted m (pulsesToIguanaSend fl carrier.hz sendCode COMPRESS_VER1) =
        transmitted m (pulsesToIguanaSend fl carrier.hz sendCode COMPRESS_VER0) ↔
      RepeatsRestored (sendCode.map (entryCycles fl carrier.hz)) := by
  rw [transmitted_eq_signal m hq h₀.1 h₀.2, transmitted_eq_signal m hq h₁.1 h₁.2]
  exact signal_eq_iff (txInit m) _

/-- Two pulses of half a millisecond at 38 kHz: the second is left out and put back. -/
theorem compressed_transmission_short :
    transmitted (Mcu.cleared 0) (pulsesToIguanaSend id 38000 [500, 500, 500, 1000] COMPRESS_VER1) =
      transmitted (Mcu.cleared 0)
        (pulsesToIguanaSend id 38000 [500, 500, 500, 1000] COMPRESS_VER0) := by
  have h : ([500, 500, 500, 1000] : List (BitVec 32)).map (entryCycles id 38000) =
      [19, 19, 19, 38] := by
    have h₁ : entryCycles id 38000 500 = 19 := by
      rw [entryCycles, show (500 &&& IG_PULSE_MASK : BitVec 32).toNat = 500 by decide,
        Nat.floor_eq_iff (by norm_num)]
      norm_num
    have h₂ : entryCycles id 38000 1000 = 38 := by
      rw [entryCycles, show (1000 &&& IG_PULSE_MASK : BitVec 32).toNat = 1000 by decide,
        Nat.floor_eq_iff (by norm_num)]
      norm_num
    simp only [List.map_cons, List.map_nil, h₁, h₂]
  refine (compressed_transmission_iff id ⟨38000, by decide, by decide⟩ [500, 500, 500, 1000]
    (Mcu.cleared 0) (by decide) ?_ ?_).mpr ?_
  · rw [pulsesToIguanaSend, h]
    exact ⟨by decide, by decide⟩
  · rw [pulsesToIguanaSend, h]
    exact ⟨by decide, by decide⟩
  · rw [h]
    decide

/-- Four entries of 400 carrier periods: the second pulse comes back as its last 19 periods. -/
theorem compressed_transmission_differs :
    (pulsesToIguanaSend Binary64.nearest 25600 (List.replicate 4 15625) COMPRESS_VER0).length = 16 ∧
    (pulsesToIguanaSend Binary64.nearest 25600 (List.replicate 4 15625) COMPRESS_VER1).length = 12 ∧
    transmitted (Mcu.cleared 0)
        (pulsesToIguanaSend Binary64.nearest 25600 (List.replicate 4 15625) COMPRESS_VER1) ≠
      transmitted (Mcu.cleared 0)
        (pulsesToIguanaSend Binary64.nearest 25600 (List.replicate 4 15625) COMPRESS_VER0) := by
  have hentry : entryCycles Binary64.nearest 25600 15625 = 400 := by
    have h₁ : Binary64.nearest (1 / 64) = 1 / 64 :=
      Binary64.nearest_of_dyadic (m := 1) (e := -6) (by norm_num) (by norm_num)
    have h₂ : Binary64.nearest 400 = 400 :=
      Binary64.nearest_of_dyadic (m := 400) (e := 0) (by norm_num) (by norm_num)
    have h₃ : Binary64.nearest (801 / 2) = 801 / 2 :=
      Binary64.nearest_of_dyadic (m := 801) (e := -1) (by norm_num) (by norm_num)
    have hmask : (15625 &&& IG_PULSE_MASK : BitVec 32).toNat = 15625 := by decide
    have hfloor : ⌊(801 / 2 : ℚ)⌋₊ = 400 := by
      apply (Nat.floor_eq_iff (by norm_num)).mpr
      constructor <;> norm_num
    rw [entryCycles, hmask]
    norm_num [h₁, h₂, h₃, hfloor]
  have h : (List.replicate 4 (15625 : BitVec 32)).map (entryCycles Binary64.nearest 25600) =
      [400, 400, 400, 400] := by
    rw [List.map_replicate, hentry]
    rfl
  simp only [pulsesToIguanaSend, h]
  refine ⟨by decide, by decide, fun hc => ?_⟩
  rw [transmitted_eq_signal _ (by decide) (by decide) (by decide),
    transmitted_eq_signal _ (by decide) (by decide) (by decide), signal_eq_iff] at hc
  revert hc
  decide

end IguanaIR
