import Mathlib.Algebra.Order.BigOperators.Group.List
import Mathlib.Algebra.Order.Group.Nat
import IguanaIR.Capture
import IguanaIR.Runs

/-! # Pulses from received bytes

`iguanaDevToPulses` with its memory: it is undefined (`none`) where it would read or write outside
of its blocks and where one of its 32-bit operations would overflow.  For one byte or more it never
is, and it returns the words of the model without memory (`decodePulses_eq`).

The words stand for the runs of bytes of one state.  The limit of 24 bits is checked before the
ticks are scaled, so a run is split too late. -/

namespace IguanaIR

/-! ### The function with its memory -/

/-- The locals; `retval` is the block of words. -/
structure PulseDecoder where
  retval : List (BitVec 32)
  codeLength : ℕ
  inSpace : Byte

/-- An addition without overflow. -/
def addExact (a b : BitVec 32) : Option (BitVec 32) :=
  if a.toNat + b.toNat < 4294967296 then some (a + b) else none

/-- `(ticks << 6) / 3` without overflow. -/
def scaleExact (ticks : BitVec 32) : Option (BitVec 32) :=
  if ticks.toNat * 64 < 4294967296 then some ((ticks <<< 6) / 3) else none

namespace PulseDecoder

/-- `retval[codeLength]`. -/
def ticks (d : PulseDecoder) : Option (BitVec 32) := d.retval[d.codeLength]?

def store (d : PulseDecoder) (word : BitVec 32) : Option PulseDecoder :=
  if d.codeLength < d.retval.length then some { d with retval := d.retval.set d.codeLength word }
  else none

/-- The condition for the end of a word. -/
def ends (d : PulseDecoder) (code : List Byte) (x : ℕ) : Option Bool :=
  if x = 0 then some false
  else if x = code.length then some true
  else do
    let b ← code[x]?
    if b &&& STATE_MASK ≠ d.inSpace then some true
    else
      let sum ← addExact ((b &&& LENGTH_MASK).setWidth 32) (← d.ticks)
      some (decide (IG_PULSE_MASK < sum))

def endWord (d : PulseDecoder) : Option PulseDecoder := do
  let scaled ← scaleExact (← d.ticks)
  let d ← d.store (if d.inSpace = 0 then scaled ||| IG_PULSE_BIT else scaled)
  some { d with codeLength := d.codeLength + 1 }

def addByte (d : PulseDecoder) (b : Byte) : Option PulseDecoder := do
  let d ← d.store (← addExact (← d.ticks) (receivedTicks b))
  some { d with inSpace := b &&& STATE_MASK }

/-- The rounds of the loop from index `x` on. -/
def loop (code : List Byte) : ℕ → ℕ → PulseDecoder → Option PulseDecoder
  | 0, _, d => some d
  | rounds + 1, x, d => do
      let complete ← d.ends code x
      let d ← if complete then d.endWord else some d
      if complete ∧ x = code.length then some d
      else
        let d ← if complete then d.store 0 else some d
        let d ← d.addByte (← code[x]?)
        loop code rounds (x + 1) d

end PulseDecoder

/-- `malloc` is what stands in the block at first, one word for each byte. -/
def decodePulses (malloc : List (BitVec 32)) (code : List Byte) : Option (List (BitVec 32)) := do
  let d ← PulseDecoder.store ⟨malloc, 0, 0⟩ 0
  let d ← d.loop code (code.length + 1) 0
  some (d.retval.take d.codeLength)

/-! ### It stays inside -/

theorem receivedTicks_le (b : Byte) :
    (receivedTicks b).toNat ≤ 1024 ∧ 0 < (receivedTicks b).toNat := by
  have hlen := length_le b
  rw [receivedTicks]
  split
  · decide
  · rw [BitVec.toNat_add, show (1 : BitVec 32).toNat = 1 from rfl]
    omega

namespace PulseDecoder

/-- Some bytes are read, and the current word has room for more ticks. -/
structure Within (d : PulseDecoder) (code : List Byte) (x : ℕ) (t : BitVec 32) : Prop where
  block : d.retval.length = code.length
  read : d.codeLength < x
  bound : x ≤ code.length
  ticks : d.ticks = some t
  small : t.toNat ≤ 16778239

variable {d : PulseDecoder} {code : List Byte} {x : ℕ} {t : BitVec 32}

theorem ticks_store {word : BitVec 32} (h : d.codeLength < d.retval.length) :
    ∃ d', d.store word = some d' ∧ d'.ticks = some word ∧ d'.codeLength = d.codeLength ∧
      d'.inSpace = d.inSpace ∧ d'.retval.length = d.retval.length ∧
      d'.retval.take d.codeLength = d.retval.take d.codeLength := by
  refine ⟨{ d with retval := d.retval.set d.codeLength word }, if_pos h, ?_, rfl, rfl,
    List.length_set .., ?_⟩
  · exact List.getElem?_set_self h
  · exact List.take_set_of_le (Nat.le_refl _)

theorem endWord_spec (h : d.Within code x t) :
    ∃ d', d.endWord = some d' ∧ d'.codeLength = d.codeLength + 1 ∧ d'.inSpace = d.inSpace ∧
      d'.retval.length = code.length ∧
      d'.retval.take d'.codeLength = d.retval.take d.codeLength ++ [pulseWord d.inSpace t] := by
  have hsmall := h.small
  have hroom : d.codeLength < d.retval.length := by
    have hread := h.read
    have hbound := h.bound
    have hblock := h.block
    omega
  obtain ⟨d', hstore, hticks, hcode, hstate, hlen, htake⟩ :=
    @ticks_store d (pulseWord d.inSpace t) hroom
  refine ⟨{ d' with codeLength := d'.codeLength + 1 }, ?_, ?_, hstate, hlen.trans h.block, ?_⟩
  · rw [endWord, h.ticks]
    simp only [Option.bind_eq_bind, Option.bind_some]
    rw [scaleExact, if_pos (by omega), Option.bind_some]
    rw [pulseWord] at hstore
    rw [hstore]
    rfl
  · rw [hcode]
  · rw [ticks, hcode] at hticks
    rw [hcode, List.take_add_one, hticks, htake]
    rfl

theorem addByte_spec (b : Byte) (hroom : d.codeLength < d.retval.length) (ht : d.ticks = some t)
    (hsmall : t.toNat ≤ 16777215) :
    ∃ d', d.addByte b = some d' ∧ d'.codeLength = d.codeLength ∧ d'.inSpace = b &&& STATE_MASK ∧
      d'.retval.length = d.retval.length ∧ d'.ticks = some (t + receivedTicks b) ∧
      d'.retval.take d'.codeLength = d.retval.take d.codeLength := by
  have hticks := (receivedTicks_le b).1
  obtain ⟨d', hstore, hd, hcode, -, hlen, htake⟩ := @ticks_store d (t + receivedTicks b) hroom
  refine ⟨{ d' with inSpace := b &&& STATE_MASK }, ?_, hcode, rfl, hlen, hd, ?_⟩
  · rw [addByte, ht]
    simp only [Option.bind_eq_bind, Option.bind_some]
    rw [addExact, if_pos (by omega), Option.bind_some, hstore]
    rfl
  · rw [hcode]
    exact htake

theorem ends_last (h : d.Within code x t) (hx : x = code.length) : d.ends code x = some true := by
  have hread := h.read
  rw [ends, if_neg (by omega), if_pos hx]

theorem ends_byte {b : Byte} (h : d.Within code x t) (hb : code[x]? = some b) :
    d.ends code x = some (decide (b &&& STATE_MASK ≠ d.inSpace ∨
      IG_PULSE_MASK < (b &&& LENGTH_MASK).setWidth 32 + t)) := by
  have hread := h.read
  have hlt := (List.getElem?_eq_some_iff.mp hb).1
  have hlen := length_le b
  have hsmall := h.small
  rw [ends, if_neg (by omega), if_neg (by omega), hb, h.ticks]
  simp only [Option.bind_eq_bind, Option.bind_some]
  by_cases hstate : b &&& STATE_MASK = d.inSpace
  · rw [if_neg (not_not.mpr hstate), addExact, if_pos (by omega), Option.bind_some]
    simp [hstate]
  · rw [if_pos hstate]
    simp [hstate]

/-- The loop behind the first byte is the one on the bytes that are left. -/
theorem loop_eq : ∀ (rest : List Byte) (x : ℕ) (d : PulseDecoder) (t : BitVec 32),
    code.drop x = rest → d.Within code x t →
      ∃ d', d.loop code (rest.length + 1) x = some d' ∧
        d'.retval.take d'.codeLength =
          d.retval.take d.codeLength ++ devToPulses d.inSpace t rest
  | [], x, d, t, hrest, h => by
      have hx : x = code.length := by
        have hlen := List.drop_eq_nil_iff.mp hrest
        have hbound := h.bound
        omega
      obtain ⟨d', hend, -, -, -, htake⟩ := endWord_spec h
      refine ⟨d', ?_, htake⟩
      rw [List.length_nil, loop, ends_last h hx]
      simp only [Option.bind_eq_bind, Option.bind_some, if_true, hend]
      rw [if_pos ⟨trivial, hx⟩]
  | b :: rest, x, d, t, hrest, h => by
      have hb : code[x]? = some b := by
        rw [← List.head?_drop, hrest, List.head?_cons]
      have hnext : code.drop (x + 1) = rest := by
        rw [← List.drop_drop, hrest, List.drop_one, List.tail_cons]
      have hlt := (List.getElem?_eq_some_iff.mp hb).1
      have hread := h.read
      have hblock := h.block
      rw [List.length_cons, loop, ends_byte h hb, devToPulses]
      simp only [Option.bind_eq_bind, Option.bind_some]
      by_cases hend : b &&& STATE_MASK ≠ d.inSpace ∨
          IG_PULSE_MASK < (b &&& LENGTH_MASK).setWidth 32 + t
      · -- the word is complete and the byte begins the next one
        obtain ⟨d₁, hword, hcode₁, -, hlen₁, htake₁⟩ := endWord_spec h
        obtain ⟨d₂, hzero, ht₂, hcode₂, -, hlen₂, htake₂⟩ := @ticks_store d₁ 0 (by omega)
        obtain ⟨d₃, hadd, hcode₃, hstate₃, hlen₃, ht₃, htake₃⟩ :=
          @addByte_spec d₂ 0 b (by omega) ht₂ (by decide)
        have hzero' : 0 + receivedTicks b = receivedTicks b := BitVec.zero_add _
        rw [hzero'] at ht₃
        have hticks := (receivedTicks_le b).1
        obtain ⟨d₄, hloop, htake₄⟩ := loop_eq rest (x + 1) d₃ (receivedTicks b) hnext
          ⟨by omega, by omega, by omega, ht₃, by omega⟩
        refine ⟨d₄, ?_, ?_⟩
        · simp only [hend, decide_true, if_true, hword, Option.bind_some, hzero, hb, hadd]
          rw [if_neg (by omega)]
          exact hloop
        · rw [if_pos hend, htake₄, hstate₃, htake₃, hcode₂, htake₂, htake₁, List.append_assoc]
          rfl
      · -- the byte adds to the word
        have hsum : t.toNat ≤ 16777215 := by
          have hle := BitVec.not_lt.mp (not_or.mp hend).2
          have hmask : IG_PULSE_MASK.toNat = 16777215 := rfl
          have hlen := length_le b
          have hsmall := h.small
          rw [BitVec.le_def, BitVec.toNat_add, hmask] at hle
          omega
        obtain ⟨d₁, hadd, hcode₁, hstate₁, hlen₁, ht₁, htake₁⟩ :=
          @addByte_spec d t b (by omega) h.ticks hsum
        have hticks := (receivedTicks_le b).1
        have hsmall : (t + receivedTicks b).toNat ≤ 16778239 := by
          rw [BitVec.toNat_add]
          omega
        obtain ⟨d₂, hloop, htake₂⟩ := loop_eq rest (x + 1) d₁ (t + receivedTicks b) hnext
          ⟨by omega, by omega, by omega, ht₁, hsmall⟩
        refine ⟨d₂, ?_, ?_⟩
        · simp only [hend, decide_false, Bool.false_eq_true, if_false, false_and, hb,
            Option.bind_some, hadd]
          exact hloop
        · rw [if_neg hend, htake₂, hstate₁, htake₁]

end PulseDecoder

/-- **The memory of `iguanaDevToPulses`**: with a byte or more nothing is read or written outside of
the blocks, nothing overflows, and the words are those of the model without memory. -/
theorem decodePulses_eq {malloc : List (BitVec 32)} {code : List Byte} (hne : code ≠ [])
    (hlen : malloc.length = code.length) : decodePulses malloc code = iguanaDevToPulses code := by
  cases code with
  | nil => exact absurd rfl hne
  | cons b rest =>
    obtain ⟨d₁, hzero, ht₁, hcode₁, -, hlen₁, -⟩ :=
      @PulseDecoder.ticks_store ⟨malloc, 0, 0⟩ 0 (by simp [hlen])
    obtain ⟨d₂, hadd, hcode₂, hstate₂, hlen₂, ht₂, -⟩ :=
      @PulseDecoder.addByte_spec d₁ 0 b (by simp [hcode₁, hlen₁, hlen]) ht₁ (by decide)
    have hzero' : 0 + receivedTicks b = receivedTicks b := BitVec.zero_add _
    rw [hzero'] at ht₂
    have hticks := (receivedTicks_le b).1
    have hcode : d₂.codeLength = 0 := hcode₂.trans hcode₁
    obtain ⟨d₃, hloop, htake⟩ := @PulseDecoder.loop_eq (b :: rest) rest 1 d₂ (receivedTicks b) rfl
      ⟨hlen₂.trans (hlen₁.trans hlen), by omega, by simp, ht₂, by omega⟩
    have hfirst : d₁.loop (b :: rest) ((b :: rest).length + 1) 0 = some d₃ := by
      rw [List.length_cons, PulseDecoder.loop, PulseDecoder.ends, if_pos rfl]
      simp only [Option.bind_eq_bind, Option.bind_some, Bool.false_eq_true, if_false, false_and,
        List.getElem?_cons_zero, hadd]
      exact hloop
    rw [decodePulses, hzero]
    simp only [Option.bind_eq_bind, Option.bind_some, hfirst]
    rw [htake, hcode, List.take_zero, List.nil_append, hstate₂, iguanaDevToPulses]

/-! ### The runs of the input -/

/-- The maximal runs of bytes of one state, each with its ticks. -/
def signalRuns (code : List Byte) : List (Byte × ℕ) :=
  Runs.merge (code.map (fun b => (b &&& STATE_MASK, (receivedTicks b).toNat)))

/-- The word for `t` ticks in a state, whose duration fits 24 bits. -/
structure IsWord (state : Byte) (t : ℕ) (word : BitVec 32) : Prop where
  fits : 64 * t / 3 ≤ IG_PULSE_MASK.toNat
  value : word.toNat = (if state = 0 then IG_PULSE_BIT.toNat else 0) + 64 * t / 3

/-- Every run has one word, or several if it is too long for one. -/
inductive Grouped : List (Byte × ℕ) → List (BitVec 32) → Prop where
  | nil : Grouped [] []
  | run {state : Byte} {total : ℕ} {runs : List (Byte × ℕ)} {words rest : List (BitVec 32)}
      (pieces : List ℕ) (hsum : pieces.sum = total)
      (hwords : List.Forall₂ (IsWord state) pieces words)
      (hwhole : 64 * total / 3 ≤ IG_PULSE_MASK.toNat → pieces = [total])
      (hrest : Grouped runs rest) : Grouped ((state, total) :: runs) (words ++ rest)

theorem signalRuns_cons (b : Byte) (code : List Byte) :
    signalRuns (b :: code) =
      Runs.push (b &&& STATE_MASK) (receivedTicks b).toNat (signalRuns code) := rfl

/-- The runs of the bytes that are left, behind a word that has begun. -/
def runsFrom (inSpace : Byte) (ticks : BitVec 32) (rest : List Byte) : List (Byte × ℕ) :=
  Runs.push inSpace ticks.toNat (signalRuns rest)

theorem fits_iff (t : ℕ) : 64 * t / 3 ≤ IG_PULSE_MASK.toNat ↔ t ≤ 786431 := by
  have hmask : IG_PULSE_MASK.toNat = 16777215 := rfl
  omega

theorem or_pulseBit {word : BitVec 32} (h : word.toNat < 16777216) :
    (word ||| IG_PULSE_BIT).toNat = 16777216 + word.toNat := by
  have hbit : IG_PULSE_BIT.toNat = 2 ^ 24 * 1 := rfl
  rw [BitVec.toNat_or, hbit, Nat.or_comm, ← Nat.two_pow_add_eq_or_of_lt h]

/-- The word of a short run is right. -/
theorem isWord_pulseWord (inSpace : Byte) {ticks : BitVec 32} (h : ticks.toNat ≤ 786431) :
    IsWord inSpace ticks.toNat (pulseWord inSpace ticks) := by
  have hscaled : ((ticks <<< 6) / 3).toNat = 64 * ticks.toNat / 3 := by
    have h3 : (3 : BitVec 32).toNat = 3 := rfl
    rw [BitVec.toNat_udiv, BitVec.toNat_shiftLeft, Nat.shiftLeft_eq, h3]
    omega
  have hfits := (fits_iff ticks.toNat).mpr h
  refine ⟨hfits, ?_⟩
  have hmask : IG_PULSE_MASK.toNat = 16777215 := rfl
  have hbit : IG_PULSE_BIT.toNat = 16777216 := rfl
  rw [pulseWord]
  split
  · rw [or_pulseBit (by omega), hscaled, hbit]
  · rw [hscaled, Nat.zero_add]

/-- Adding the ticks of a byte to a word that still has a short run before it. -/
theorem runsFrom_same {inSpace : Byte} {ticks : BitVec 32} {b : Byte} (rest : List Byte)
    (hs : b &&& STATE_MASK = inSpace) (hsmall : ticks.toNat ≤ 16777215) :
    runsFrom inSpace ticks (b :: rest) = runsFrom inSpace (ticks + receivedTicks b) rest := by
  have hticks := (receivedTicks_le b).1
  rw [runsFrom, signalRuns_cons, hs, Runs.push_push, runsFrom, BitVec.toNat_add,
    Nat.mod_eq_of_lt (by omega)]

theorem runsFrom_other {inSpace : Byte} {ticks : BitVec 32} {b : Byte} (rest : List Byte)
    (hs : b &&& STATE_MASK ≠ inSpace) (hpos : 0 < ticks.toNat) :
    runsFrom inSpace ticks (b :: rest) =
      (inSpace, ticks.toNat) :: runsFrom (b &&& STATE_MASK) (receivedTicks b) rest :=
  Runs.push_other (Ne.symm hs) hpos (receivedTicks_le b).2 _

/-- With short runs every run has its word. -/
theorem grouped_devToPulses : ∀ (rest : List Byte) (inSpace : Byte) (ticks : BitVec 32),
    0 < ticks.toNat → (∀ run ∈ runsFrom inSpace ticks rest, run.2 ≤ 786431) →
      Grouped (runsFrom inSpace ticks rest) (devToPulses inSpace ticks rest)
  | [], inSpace, ticks, hpos, hshort => by
      have hruns : runsFrom inSpace ticks [] = [(inSpace, ticks.toNat)] := by
        rw [runsFrom, signalRuns, List.map_nil, Runs.merge_nil, Runs.push, if_neg (by omega)]
      rw [hruns] at hshort ⊢
      exact .run [ticks.toNat] (by simp)
        (.cons (isWord_pulseWord inSpace (hshort _ (List.mem_singleton.mpr rfl))) .nil)
        (fun _ => rfl) .nil
  | b :: rest, inSpace, ticks, hpos, hshort => by
      have hhead : ticks.toNat ≤ 786431 := by
        obtain ⟨m, l, h, hle⟩ := Runs.push_head inSpace hpos (signalRuns (b :: rest))
        have hm := hshort (inSpace, m) (by rw [runsFrom, h]; exact List.mem_cons_self ..)
        exact hle.trans hm
      by_cases hs : b &&& STATE_MASK = inSpace
      · have hle : (b &&& LENGTH_MASK).setWidth 32 + ticks ≤ IG_PULSE_MASK := by
          have hlen := length_le b
          have hmask : IG_PULSE_MASK.toNat = 16777215 := rfl
          rw [BitVec.le_def, BitVec.toNat_add, hmask]
          omega
        have hticks := receivedTicks_le b
        rw [runsFrom_same rest hs (by omega)] at hshort ⊢
        rw [devToPulses_same hs hle]
        apply grouped_devToPulses rest inSpace _ _ hshort
        rw [BitVec.toNat_add]
        omega
      · rw [runsFrom_other rest hs hpos] at hshort ⊢
        rw [devToPulses_other hs]
        have ih := grouped_devToPulses rest (b &&& STATE_MASK) (receivedTicks b)
          (receivedTicks_le b).2 (fun run hrun => hshort run (List.mem_cons_of_mem _ hrun))
        exact .run [ticks.toNat] (by simp) (.cons (isWord_pulseWord inSpace hhead) .nil)
          (fun _ => rfl) ih

/-! ### Long runs -/

/-- As many words as the code makes of a run, at most. -/
def wordsMade (total : ℕ) : ℕ := (total + 16777088) / 16777089

/-- As many words as a run needs. -/
def wordsNeeded (total : ℕ) : ℕ := (total + 786430) / 786431

theorem wordsMade_le (total : ℕ) : wordsMade total ≤ wordsNeeded total := by
  rw [wordsMade, wordsNeeded]
  omega

theorem wordsMade_lt {total : ℕ} (h : 786431 < total) : wordsMade total < wordsNeeded total := by
  rw [wordsMade, wordsNeeded]
  omega

theorem wordsMade_pos {total : ℕ} (h : 0 < total) : 1 ≤ wordsMade total := by
  rw [wordsMade]
  omega

theorem wordsMade_add {ticks total : ℕ} (h : 16777089 ≤ ticks) :
    1 + wordsMade total ≤ wordsMade (ticks + total) := by
  rw [wordsMade, wordsMade]
  omega

/-- A word ends by itself only when it has all but 126 of the ticks that the mask allows. -/
theorem devToPulses_length : ∀ (rest : List Byte) (inSpace : Byte) (ticks : BitVec 32),
    0 < ticks.toNat → ticks.toNat ≤ 16778239 →
      (devToPulses inSpace ticks rest).length ≤
        ((runsFrom inSpace ticks rest).map (fun run => wordsMade run.2)).sum
  | [], inSpace, ticks, hpos, _ => by
      have hruns : runsFrom inSpace ticks [] = [(inSpace, ticks.toNat)] := by
        rw [runsFrom, signalRuns, List.map_nil, Runs.merge_nil, Runs.push, if_neg (by omega)]
      have hword := wordsMade_pos hpos
      rw [hruns, devToPulses, List.map_singleton, List.sum_singleton, List.length_singleton]
      exact hword
  | b :: rest, inSpace, ticks, hpos, hsmall => by
      have hticks := receivedTicks_le b
      have hnext := devToPulses_length rest (b &&& STATE_MASK) (receivedTicks b) hticks.2 (by omega)
      by_cases hs : b &&& STATE_MASK = inSpace
      · by_cases hle : (b &&& LENGTH_MASK).setWidth 32 + ticks ≤ IG_PULSE_MASK
        · have hlen := length_le b
          have hmask : IG_PULSE_MASK.toNat = 16777215 := rfl
          rw [BitVec.le_def, BitVec.toNat_add, hmask] at hle
          have hsum : (ticks + receivedTicks b).toNat = ticks.toNat + (receivedTicks b).toNat := by
            rw [BitVec.toNat_add]
            omega
          rw [runsFrom_same rest hs (by omega), devToPulses_same hs (by
            rw [BitVec.le_def, BitVec.toNat_add, hmask]
            exact hle)]
          exact devToPulses_length rest inSpace _ (by omega) (by omega)
        · -- the run goes on in a word of its own
          have hlen := length_le b
          have hmask : IG_PULSE_MASK.toNat = 16777215 := rfl
          rw [BitVec.not_le] at hle
          have hlong : 16777089 ≤ ticks.toNat := by
            rw [BitVec.lt_def, BitVec.toNat_add, hmask] at hle
            omega
          obtain ⟨m, l, hm, -⟩ := Runs.push_head inSpace hticks.2 (signalRuns rest)
          have hruns : runsFrom inSpace ticks (b :: rest) = (inSpace, ticks.toNat + m) :: l := by
            rw [runsFrom, signalRuns_cons, hs, hm]
            simp [Runs.push]
          have hmade := @wordsMade_add ticks.toNat m hlong
          rw [hs, runsFrom, hm, List.map_cons, List.sum_cons] at hnext
          rw [devToPulses, if_pos (.inr hle), List.length_cons, hruns, List.map_cons, List.sum_cons,
            hs]
          simp only at hnext ⊢
          omega
      · have hword := wordsMade_pos hpos
        rw [runsFrom_other rest hs hpos, devToPulses_other hs, List.length_cons, List.map_cons,
          List.sum_cons]
        simp only
        omega

theorem isWord_sum {state : Byte} {pieces : List ℕ} {words : List (BitVec 32)}
    (h : List.Forall₂ (IsWord state) pieces words) : pieces.sum ≤ 786431 * words.length := by
  induction h with
  | nil => simp
  | cons hword _ ih =>
    have hfits := (fits_iff _).mp hword.fits
    rw [List.sum_cons, List.length_cons]
    omega

theorem Grouped.length_ge {runs : List (Byte × ℕ)} {words : List (BitVec 32)}
    (h : Grouped runs words) :
    (runs.map (fun run => wordsNeeded run.2)).sum ≤ words.length := by
  induction h with
  | nil => simp
  | run pieces hsum hwords _ _ ih =>
    have hle := isWord_sum hwords
    rw [List.map_cons, List.sum_cons, List.length_append]
    rw [wordsNeeded]
    omega

theorem devToPulses_length_le : ∀ (rest : List Byte) (inSpace : Byte) (ticks : BitVec 32),
    (devToPulses inSpace ticks rest).length ≤ rest.length + 1
  | [], _, _ => by simp [devToPulses]
  | b :: rest, inSpace, ticks => by
      rw [devToPulses]
      split
      · have ih := devToPulses_length_le rest (b &&& STATE_MASK) (receivedTicks b)
        rw [List.length_cons, List.length_cons]
        omega
      · have ih := devToPulses_length_le rest (b &&& STATE_MASK) (ticks + receivedTicks b)
        rw [List.length_cons]
        omega

/-- **Received bytes are decoded by runs** exactly when no run is too long for one word. -/
theorem grouped_iff (malloc : List (BitVec 32)) (code : List Byte) (hne : code ≠ [])
    (hlen : malloc.length = code.length) :
    (∃ words, decodePulses malloc code = some words ∧ words.length ≤ code.length ∧
      Grouped (signalRuns code) words) ↔
    ∀ run ∈ signalRuns code, 64 * run.2 / 3 ≤ IG_PULSE_MASK.toNat := by
  rw [decodePulses_eq hne hlen]
  cases code with
  | nil => exact absurd rfl hne
  | cons b rest =>
    have hruns : signalRuns (b :: rest) = runsFrom (b &&& STATE_MASK) (receivedTicks b) rest := rfl
    have hticks := receivedTicks_le b
    rw [iguanaDevToPulses, hruns]
    constructor
    · rintro ⟨words, hwords, -, hgrouped⟩
      obtain rfl := Option.some.inj hwords
      by_contra hlong
      push Not at hlong
      obtain ⟨run, hrun, htotal⟩ := hlong
      have hmade := devToPulses_length rest (b &&& STATE_MASK) (receivedTicks b) hticks.2 (by omega)
      have hneeded := hgrouped.length_ge
      have hfits := (fits_iff run.2).not.mp (Nat.not_le.mpr htotal)
      have hlt := List.sum_lt_sum (fun run : Byte × ℕ => wordsMade run.2)
        (fun run => wordsNeeded run.2)
        (fun run _ => wordsMade_le run.2) ⟨run, hrun, wordsMade_lt (by omega)⟩
      omega
    · intro hshort
      refine ⟨_, rfl, devToPulses_length_le rest _ _, ?_⟩
      exact grouped_devToPulses rest _ _ hticks.2 (fun run hrun => (fits_iff _).mp (hshort run hrun))

theorem grouped_iff_three :
    ∃ words, decodePulses [7, 7, 7] [0x05, 0x80, 0xFF] = some words ∧ words.length ≤ 3 ∧
      Grouped (signalRuns [0x05, 0x80, 0xFF]) words :=
  (grouped_iff [7, 7, 7] [0x05, 0x80, 0xFF] (by decide) rfl).mpr (by decide)

/-- Sixteen seconds of silence, as 768 bytes that stand for 1024 ticks each. -/
def silence : List Byte := List.replicate 768 0x80

/-- The one word for it is a pulse of length zero. -/
theorem silence_is_pulse :
    decodePulses (List.replicate 768 0) silence = some [IG_PULSE_BIT] ∧
      ¬∃ words, decodePulses (List.replicate 768 0) silence = some words ∧
        words.length ≤ silence.length ∧ Grouped (signalRuns silence) words := by
  have hne : silence ≠ [] := by decide
  have hword : iguanaDevToPulses silence = some [IG_PULSE_BIT] := by decide +kernel
  have hneeded : ((signalRuns silence).map (fun run => wordsNeeded run.2)).sum = 2 := by
    decide +kernel
  rw [decodePulses_eq hne (by rw [silence, List.length_replicate, List.length_replicate])]
  refine ⟨hword, ?_⟩
  rintro ⟨words, hwords, -, hgrouped⟩
  obtain rfl := Option.some.inj (hword.symm.trans hwords)
  have hle := hgrouped.length_ge
  rw [hneeded, List.length_singleton] at hle
  omega

end IguanaIR
