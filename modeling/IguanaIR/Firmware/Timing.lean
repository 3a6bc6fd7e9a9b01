import IguanaIR.Firmware.Mcu
import Mathlib.Algebra.GroupWithZero.Nat

/-! # The time of the transmit loop

One round of `sl_pulse` of `ir.asm`, which is half a carrier period, in clock cycles.  The loop
jumps into two blocks of instructions that do nothing but take time; the offsets say how many
bytes of each block it skips. -/

namespace IguanaIR.Firmware

/-- The size and the time of an instruction. -/
structure Instr where
  bytes : ℕ
  cycles : ℕ
deriving DecidableEq, Repr

/-- `delay_7s`: four times `cmp A, [0]`. -/
def delay7s : List Instr := List.replicate 4 ⟨2, 7⟩

/-- `delay_4s`: eleven times ten `nop`. -/
def delay4s : List Instr := List.replicate 110 ⟨1, 4⟩

/-- The instructions behind the first `n` bytes, for a jump that meets the start of one or the
end of the block. -/
def skipBytes : ℕ → List Instr → Option (List Instr)
  | 0, block => some block
  | _ + 1, [] => none
  | n + 1, i :: block => if n + 1 < i.bytes then none else skipBytes (n + 1 - i.bytes) block

def blockCycles (block : List Instr) : ℕ := (block.map (·.cycles)).sum

/-- One round of the loop with the offsets of the control packet: the pulse up to `dec`, the two
jumps with their blocks, and the jump back. -/
def halfPeriod (skip7s skip4s : Byte) : Option ℕ := do
  let sevens ← skipBytes skip7s.toNat delay7s
  let fours ← skipBytes skip4s.toNat delay4s
  some (5 + 5 + 7 + 6 + 6 + 7 + (5 + 7) + blockCycles sevens + (5 + 7) + blockCycles fours + 5)

end IguanaIR.Firmware
