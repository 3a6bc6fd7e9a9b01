import IguanaIR.Protocol
import IguanaIR.Binary64

/-! # The send format

`pulsesToIguanaSend` of `sendFormat.c`: microsecond durations to the signal bytes of the
device, one carrier cycle being the unit of length.

The number of cycles of an entry is a `double` expression.  `entryCycles` takes the rounding
of its operations as the parameter `fl`: `Binary64.nearest` is what the code computes with,
`id` is exact arithmetic.  Statements for every `fl` hold of both.

`pulsesLoop` is the loop: the entries still to come, `inSpace` and `lastCycles`.  The bytes it
returns are what the source stores through `results`, block by block; `codeLength` is their
number. -/

namespace IguanaIR

/-- Highest value of a data byte in the IR code protocol. -/
def MAX_DATA_BYTE : ℕ := 127

inductive Compress where
  | COMPRESS_VER0
  | COMPRESS_VER1
deriving DecidableEq, Repr

open Compress

/-- `(uint32_t)((sendCode & IG_PULSE_MASK) / 1000000.0 * carrier + 0.5)`. -/
def entryCycles (fl : ℚ → ℚ) (carrier : ℕ) (entry : BitVec 32) : ℕ :=
  ⌊fl (fl (fl ((entry &&& IG_PULSE_MASK).toNat / 1000000) * carrier) + 1 / 2)⌋₊

/-- `cycles % MAX_DATA_BYTE`, with the remainder 0 replaced by a full byte. -/
def lastByteCycles (cycles : ℕ) : ℕ :=
  if cycles % MAX_DATA_BYTE = 0 then MAX_DATA_BYTE else cycles % MAX_DATA_BYTE

/-- `cycles / MAX_DATA_BYTE + 1`, less the byte that a remainder of 0 would have been. -/
def entryBytes (cycles : ℕ) : ℕ :=
  if cycles % MAX_DATA_BYTE = 0 then cycles / MAX_DATA_BYTE else cycles / MAX_DATA_BYTE + 1

/-- The state bit of the bytes of an entry. -/
def stateBit (inSpace : Bool) : Byte := if inSpace then STATE_MASK else 0

/-- The bytes stored for an entry of `numBytes` bytes: full ones, then the last. -/
def storeEntry (inSpace : Bool) (cycles numBytes : ℕ) : List Byte :=
  if numBytes = 0 then []
  else List.replicate (numBytes - 1) (LENGTH_MASK ||| stateBit inSpace) ++
    [BitVec.ofNat 8 cycles ||| stateBit inSpace]

/-- Is the pulse left out?  `more` says that it is not the last entry. -/
def dropsPulse (compress : Compress) (inSpace : Bool) (lastCycles cycles : ℕ) (more : Bool) :
    Bool :=
  compress == COMPRESS_VER1 && !inSpace && cycles != MAX_DATA_BYTE && cycles == lastCycles && more

def pulsesLoop (compress : Compress) (inSpace : Bool) (lastCycles : ℕ) : List ℕ → List Byte
  | [] => []
  | total :: rest =>
      let cycles := lastByteCycles total
      let numBytes :=
        if dropsPulse compress inSpace lastCycles cycles (!rest.isEmpty) then 0 else entryBytes total
      let lastCycles' := if compress = COMPRESS_VER1 ∧ inSpace = false then cycles else lastCycles
      storeEntry inSpace cycles numBytes ++ pulsesLoop compress (!inSpace) lastCycles' rest

/-- The bytes for `sendCode`; the value returned by the source is their number. -/
def pulsesToIguanaSend (fl : ℚ → ℚ) (carrier : ℕ) (sendCode : List (BitVec 32))
    (compress : Compress) : List Byte :=
  pulsesLoop compress false 0 (sendCode.map (entryCycles fl carrier))

/-! ### One entry -/

/-- The bytes of an entry that is not left out. -/
def entryBlock (inSpace : Bool) (total : ℕ) : List Byte :=
  storeEntry inSpace (lastByteCycles total) (entryBytes total)

theorem lastByteCycles_pos (total : ℕ) : 0 < lastByteCycles total := by
  unfold lastByteCycles MAX_DATA_BYTE
  split_ifs <;> omega

theorem lastByteCycles_le (total : ℕ) : lastByteCycles total ≤ 127 := by
  unfold lastByteCycles MAX_DATA_BYTE
  split_ifs <;> omega

/-- The last byte is full exactly for the multiples of 127. -/
theorem lastByteCycles_eq_max {total : ℕ} : lastByteCycles total = 127 ↔ total % 127 = 0 := by
  unfold lastByteCycles MAX_DATA_BYTE
  split_ifs <;> omega

theorem lastByteCycles_of_ne {total : ℕ} (h : total % 127 ≠ 0) :
    lastByteCycles total = total % 127 := by
  unfold lastByteCycles MAX_DATA_BYTE
  rw [if_neg h]

/-- The full bytes and the last one add up to the entry. -/
theorem entryBytes_sum {total : ℕ} (h : total ≠ 0) :
    entryBytes total ≠ 0 ∧ (entryBytes total - 1) * 127 + lastByteCycles total = total := by
  unfold entryBytes lastByteCycles MAX_DATA_BYTE
  split_ifs <;> omega

@[simp] theorem entryBlock_zero (inSpace : Bool) : entryBlock inSpace 0 = [] := rfl

theorem entryBlock_of_ne {total : ℕ} (inSpace : Bool) (h : total ≠ 0) :
    entryBlock inSpace total =
      List.replicate (entryBytes total - 1) (LENGTH_MASK ||| stateBit inSpace) ++
        [BitVec.ofNat 8 (lastByteCycles total) ||| stateBit inSpace] := by
  unfold entryBlock storeEntry
  rw [if_neg (entryBytes_sum h).1]

/-- A length byte with a state bit on top reads back as both. -/
theorem length_state_byte : ∀ n < 128, ∀ inSpace : Bool,
    (BitVec.ofNat 8 n ||| stateBit inSpace) &&& STATE_MASK = stateBit inSpace ∧
    ((BitVec.ofNat 8 n ||| stateBit inSpace) &&& LENGTH_MASK).toNat = n := by decide +kernel

theorem mem_entryBlock {inSpace : Bool} {total : ℕ} {b : Byte} (hb : b ∈ entryBlock inSpace total) :
    ∃ n, 0 < n ∧ n < 128 ∧ b = BitVec.ofNat 8 n ||| stateBit inSpace := by
  rcases Nat.eq_zero_or_pos total with rfl | hpos
  · simp at hb
  rw [entryBlock_of_ne inSpace (by omega), List.mem_append, List.mem_replicate,
    List.mem_singleton] at hb
  rcases hb with ⟨-, rfl⟩ | rfl
  · exact ⟨127, by omega, by omega, rfl⟩
  · have := lastByteCycles_le total
    exact ⟨lastByteCycles total, lastByteCycles_pos total, by omega, rfl⟩

theorem entryBlock_state {inSpace : Bool} {total : ℕ} {b : Byte}
    (hb : b ∈ entryBlock inSpace total) : b &&& STATE_MASK = stateBit inSpace := by
  obtain ⟨n, -, hn, rfl⟩ := mem_entryBlock hb
  exact (length_state_byte n hn inSpace).1

/-- Neither null byte, of a pulse or of a space, occurs in a block. -/
theorem entryBlock_ne_null {inSpace : Bool} {total : ℕ} {b : Byte}
    (hb : b ∈ entryBlock inSpace total) : b ≠ 0x00 ∧ b ≠ 0x80 := by
  obtain ⟨n, hpos, hn, rfl⟩ := mem_entryBlock hb
  have h := (length_state_byte n hn inSpace).2
  constructor <;>
  · intro h0
    rw [h0] at h
    have : n = 0 := by simpa [LENGTH_MASK] using h.symm
    omega

theorem entryBlock_sum (inSpace : Bool) (total : ℕ) :
    ((entryBlock inSpace total).map (fun b => (b &&& LENGTH_MASK).toNat)).sum = total := by
  rcases Nat.eq_zero_or_pos total with rfl | hpos
  · simp
  have hsum := (entryBytes_sum (show total ≠ 0 by omega)).2
  have hle := lastByteCycles_le total
  have hfull : ((LENGTH_MASK ||| stateBit inSpace) &&& LENGTH_MASK).toNat = 127 :=
    (length_state_byte 127 (by omega) inSpace).2
  rw [entryBlock_of_ne inSpace (by omega), List.map_append, List.map_replicate, List.sum_append,
    List.sum_replicate, List.map_singleton, List.sum_singleton, hfull,
    (length_state_byte _ (by omega) inSpace).2]
  exact hsum

/-! ### The loop -/

theorem pulsesLoop_cons_drop {inSpace : Bool} {lastCycles total : ℕ} {rest : List ℕ}
    {compress : Compress}
    (h : dropsPulse compress inSpace lastCycles (lastByteCycles total) (!rest.isEmpty) = true) :
    pulsesLoop compress inSpace lastCycles (total :: rest) =
      pulsesLoop compress (!inSpace) (lastByteCycles total) rest := by
  have hc : compress = COMPRESS_VER1 ∧ inSpace = false := by
    simp only [dropsPulse, Bool.and_eq_true, beq_iff_eq, Bool.not_eq_true'] at h
    exact ⟨h.1.1.1.1, h.1.1.1.2⟩
  simp only [pulsesLoop, h, if_true, if_pos hc, storeEntry, List.nil_append]

theorem pulsesLoop_cons_keep {inSpace : Bool} {lastCycles total : ℕ} {rest : List ℕ}
    {compress : Compress}
    (h : dropsPulse compress inSpace lastCycles (lastByteCycles total) (!rest.isEmpty) = false) :
    pulsesLoop compress inSpace lastCycles (total :: rest) = entryBlock inSpace total ++
      pulsesLoop compress (!inSpace)
        (if compress = COMPRESS_VER1 ∧ inSpace = false then lastByteCycles total else lastCycles)
        rest := by
  simp only [pulsesLoop, h, Bool.false_eq_true, if_false, entryBlock]

/-- Without compression every entry has its block, whatever `lastCycles` holds. -/
theorem pulsesLoop_ver0_cons (inSpace : Bool) (lastCycles total : ℕ) (rest : List ℕ) :
    pulsesLoop COMPRESS_VER0 inSpace lastCycles (total :: rest) =
      entryBlock inSpace total ++ pulsesLoop COMPRESS_VER0 (!inSpace) lastCycles rest := by
  rw [pulsesLoop_cons_keep rfl]
  rfl

/-- The blocks of the entries in order, alternately pulses and spaces. -/
def entryBlocks (inSpace : Bool) : List ℕ → List (List Byte)
  | [] => []
  | total :: rest => entryBlock inSpace total :: entryBlocks (!inSpace) rest

theorem pulsesLoop_ver0 (inSpace : Bool) (lastCycles : ℕ) (totals : List ℕ) :
    pulsesLoop COMPRESS_VER0 inSpace lastCycles totals = (entryBlocks inSpace totals).flatten := by
  induction totals generalizing inSpace with
  | nil => rfl
  | cons total rest ih => rw [pulsesLoop_ver0_cons, ih, entryBlocks, List.flatten_cons]

theorem entryBlocks_length (inSpace : Bool) (totals : List ℕ) :
    (entryBlocks inSpace totals).length = totals.length := by
  induction totals generalizing inSpace with
  | nil => rfl
  | cons total rest ih => rw [entryBlocks, List.length_cons, ih, List.length_cons]

theorem entryBlocks_getElem? (inSpace : Bool) (totals : List ℕ) (x : ℕ) :
    (entryBlocks inSpace totals)[x]? =
      totals[x]?.map (entryBlock (if x % 2 = 0 then inSpace else !inSpace)) := by
  induction totals generalizing inSpace x with
  | nil => rfl
  | cons total rest ih =>
      cases x with
      | zero => rfl
      | succ x =>
          rw [entryBlocks, List.getElem?_cons_succ, List.getElem?_cons_succ, ih]
          congr 1
          rcases Nat.mod_two_eq_zero_or_one x with hx | hx
          · rw [if_pos hx, if_neg (by omega)]
          · rw [if_neg (by omega), if_pos (by omega), Bool.not_not]

end IguanaIR
