import Mathlib.Data.List.Basic
import Mathlib.Data.Nat.Notation

/-! # M8C machine code

A few instructions of the M8C processor: stores and loads of constants, long calls and the return.
`run` decodes and executes them from a code memory; what a store and a call do is given by a
`Platform`.

`run_program` is the rule for straight-line code: where the encoding of a list of instructions is
placed, with a return behind it, running it is executing the list. -/

namespace M8c

/-- An instruction that goes on with the next one. -/
inductive Op where
  /-- `mov [address], value` -/
  | store (address value : BitVec 8)
  /-- `mov A, value` -/
  | movA (value : BitVec 8)
  /-- `mov X, value` -/
  | movX (value : BitVec 8)
  | lcall (target : BitVec 16)
deriving DecidableEq, Repr

inductive Instruction where
  | op (o : Op)
  | ret
deriving DecidableEq, Repr

/-- The bytes of an instruction. -/
def Op.encode : Op → List (BitVec 8)
  | .store address value => [0x55, address, value]
  | .movA value => [0x50, value]
  | .movX value => [0x57, value]
  | .lcall target => [0x7C, target.extractLsb' 8 8, target.extractLsb' 0 8]

/-- The instruction at an address; other opcodes are not known here. -/
def decode (code : ℕ → BitVec 8) (pc : ℕ) : Option Instruction :=
  if code pc = 0x55 then some (.op (.store (code (pc + 1)) (code (pc + 2))))
  else if code pc = 0x50 then some (.op (.movA (code (pc + 1))))
  else if code pc = 0x57 then some (.op (.movX (code (pc + 1))))
  else if code pc = 0x7C then some (.op (.lcall (code (pc + 1) ++ code (pc + 2))))
  else if code pc = 0x7F then some .ret
  else none

/-! ### Execution -/

/-- The registers, and a state of the platform. -/
structure Cpu (σ : Type) where
  a : BitVec 8
  x : BitVec 8
  mem : σ

structure Platform (σ : Type) where
  write : σ → BitVec 8 → BitVec 8 → σ
  call : BitVec 16 → Cpu σ → Option (Cpu σ)

variable {σ : Type} (P : Platform σ)

def Op.exec : Op → Cpu σ → Option (Cpu σ)
  | .store address value, c => some { c with mem := P.write c.mem address value }
  | .movA value, c => some { c with a := value }
  | .movX value, c => some { c with x := value }
  | .lcall target, c => P.call target c

/-- Run from `pc` to a return, for at most this many instructions. -/
def run (code : ℕ → BitVec 8) : ℕ → ℕ → Cpu σ → Option (Cpu σ)
  | 0, _, _ => none
  | fuel + 1, pc, c =>
      match decode code pc with
      | none => none
      | some .ret => some c
      | some (.op o) => (o.exec P c).bind (run code fuel (pc + o.encode.length))

/-- A list of instructions, one after the other. -/
def execAll : List Op → Cpu σ → Option (Cpu σ)
  | [], c => some c
  | o :: ops, c => (o.exec P c).bind (execAll ops)

theorem execAll_append : ∀ (ops ops' : List Op) (c : Cpu σ),
    execAll P (ops ++ ops') c = (execAll P ops c).bind (execAll P ops')
  | [], _, _ => rfl
  | o :: ops, ops', c => by
      rw [List.cons_append, execAll, execAll, Option.bind_assoc]
      congr 1
      funext c'
      exact execAll_append ops ops' c'

/-! ### Code in memory -/

/-- The bytes are in the code memory from `pc` on. -/
def Placed (code : ℕ → BitVec 8) (pc : ℕ) (bytes : List (BitVec 8)) : Prop :=
  ∀ i, ∀ h : i < bytes.length, code (pc + i) = bytes[i]

namespace Placed

variable {code : ℕ → BitVec 8} {pc : ℕ} {bytes bytes' : List (BitVec 8)}

theorem cons {b : BitVec 8} (h : Placed code pc (b :: bytes)) :
    code pc = b ∧ Placed code (pc + 1) bytes := by
  refine ⟨h 0 (Nat.zero_lt_succ _), ?_⟩
  intro i hi
  have hnext := h (i + 1) (Nat.succ_lt_succ hi)
  rw [List.getElem_cons_succ] at hnext
  rw [← hnext, Nat.add_assoc, Nat.add_comm 1 i]

theorem append_left (h : Placed code pc (bytes ++ bytes')) : Placed code pc bytes := by
  intro i hi
  rw [h i (by rw [List.length_append]; omega), List.getElem_append_left hi]

theorem append_right (h : Placed code pc (bytes ++ bytes')) :
    Placed code (pc + bytes.length) bytes' := by
  intro i hi
  rw [Nat.add_assoc, h (bytes.length + i) (by rw [List.length_append]; omega),
    List.getElem_append_right (by omega)]
  simp

end Placed

/-- What was encoded is decoded again. -/
theorem decode_placed {code : ℕ → BitVec 8} {pc : ℕ} {o : Op} (h : Placed code pc o.encode) :
    decode code pc = some (.op o) := by
  cases o with
  | store address value =>
      obtain ⟨h₀, h⟩ := h.cons
      obtain ⟨h₁, h⟩ := h.cons
      rw [decode, h₀, h₁, h.cons.1]
      rfl
  | movA value =>
      obtain ⟨h₀, h⟩ := h.cons
      rw [decode, h₀, h.cons.1]
      rfl
  | movX value =>
      obtain ⟨h₀, h⟩ := h.cons
      rw [decode, h₀, h.cons.1]
      rfl
  | lcall target =>
      obtain ⟨h₀, h⟩ := h.cons
      obtain ⟨h₁, h⟩ := h.cons
      have hword : target.extractLsb' 8 8 ++ target.extractLsb' 0 8 = target :=
        @BitVec.extractLsb'_append_extractLsb' 8 8 target
      rw [decode, h₀, h₁, h.cons.1, hword]
      rfl

theorem decode_ret {code : ℕ → BitVec 8} {pc : ℕ} (h : Placed code pc [0x7F]) :
    decode code pc = some .ret := by
  rw [decode, h.cons.1]
  rfl

/-- **Straight-line code** does what its instructions do, one after the other. -/
theorem run_program {code : ℕ → BitVec 8} : ∀ (ops : List Op) {fuel pc : ℕ} (c : Cpu σ),
    Placed code pc (ops.flatMap Op.encode ++ [0x7F]) → ops.length < fuel →
      run P code fuel pc c = execAll P ops c
  | _, 0, _, _, _, hfuel => absurd hfuel (Nat.not_lt_zero _)
  | [], fuel + 1, pc, c, h, _ => by
      rw [List.flatMap_nil, List.nil_append] at h
      rw [run, decode_ret h]
      rfl
  | o :: ops, fuel + 1, pc, c, h, hfuel => by
      rw [List.flatMap_cons, List.append_assoc] at h
      rw [List.length_cons] at hfuel
      rw [run, decode_placed h.append_left, execAll]
      dsimp only
      congr 1
      funext c'
      exact run_program ops c' h.append_right (by omega)

end M8c
