import IguanaIR.Carrier
import IguanaIR.DeviceInterface
import IguanaIR.SendFormat
import Mathlib.Algebra.Order.Round

/-! # Signals sent without compression

What the bytes of `pulsesToIguanaSend` say in exact arithmetic, and what a device that reads up
to the first null gets of the packets that `sendData` writes with a terminator.  Every entry of
the array has its block of bytes, and no byte of a block is a null, so that the terminator is
the only one. -/

namespace IguanaIR

open Compress

/-- The number of carrier cycles in an entry: its low 24 bits are microseconds. -/
def cyclesOf (carrier : Carrier) (entry : BitVec 32) : ℤ :=
  round ((entry &&& IG_PULSE_MASK).toNat * carrier.hz / 1000000 : ℚ)

/-- The bytes are one block for each entry, in order: pulses and spaces by turns, as long as the
entries. -/
def DescribesEntries (carrier : Carrier) (sendCode : List (BitVec 32)) (bytes : List Byte) : Prop :=
  ∃ blocks : List (List Byte), blocks.flatten = bytes ∧ blocks.length = sendCode.length ∧
    ∀ x entry block, sendCode[x]? = some entry → blocks[x]? = some block →
      (∀ b ∈ block, b &&& STATE_MASK = if x % 2 = 0 then 0 else STATE_MASK) ∧
      ((block.map (fun b => (b &&& LENGTH_MASK).toNat)).sum : ℤ) = cyclesOf carrier entry

/-- The packets hold these bytes and the terminator, and a reader that stops at a null gets
these bytes. -/
structure CarryTerminated (maxPacketSize : ℕ) (bytes : List Byte) (packets : List (List Byte)) :
    Prop where
  flatten : packets.flatten = bytes ++ [0x00]
  size : ∀ p ∈ packets, p ≠ [] ∧ p.length ≤ maxPacketSize
  upToNull : packets.flatten.takeWhile (· ≠ 0x00) = bytes

/-! ### The bytes -/

/-- Exact arithmetic gives the nearest number of cycles. -/
theorem entryCycles_exact (carrier : Carrier) (entry : BitVec 32) :
    (entryCycles id carrier.hz entry : ℤ) = cyclesOf carrier entry := by
  have hnonneg : (0 : ℚ) ≤ (entry &&& IG_PULSE_MASK).toNat / 1000000 * carrier.hz + 1 / 2 := by
    positivity
  unfold entryCycles cyclesOf
  simp only [id]
  rw [Int.natCast_floor_eq_floor hnonneg, round_eq]
  congr 2
  ring

theorem describesEntries_ver0 (carrier : Carrier) (sendCode : List (BitVec 32)) :
    DescribesEntries carrier sendCode
      (pulsesToIguanaSend id carrier.hz sendCode COMPRESS_VER0) := by
  have hget := entryBlocks_getElem? false (sendCode.map (entryCycles id carrier.hz))
  refine ⟨entryBlocks false (sendCode.map (entryCycles id carrier.hz)),
    (pulsesLoop_ver0 _ _ _).symm, ?_, fun x entry block hentry hblock => ?_⟩
  · rw [entryBlocks_length, List.length_map]
  · rw [hget, List.getElem?_map, hentry, Option.map_some, Option.map_some] at hblock
    obtain rfl := Option.some.inj hblock
    constructor
    · intro b hb
      rw [entryBlock_state hb]
      split_ifs <;> rfl
    · rw [← entryCycles_exact, entryBlock_sum]

theorem pulsesLoop_ver0_ne_null {inSpace : Bool} {lastCycles : ℕ} {totals : List ℕ} {b : Byte}
    (hb : b ∈ pulsesLoop COMPRESS_VER0 inSpace lastCycles totals) : b ≠ 0x00 ∧ b ≠ 0x80 := by
  rw [pulsesLoop_ver0] at hb
  obtain ⟨block, hblock, hb⟩ := List.mem_flatten.mp hb
  obtain ⟨x, hx⟩ := List.getElem?_of_mem hblock
  rw [entryBlocks_getElem?] at hx
  obtain ⟨total, -, rfl⟩ := Option.map_eq_some_iff.mp hx
  exact entryBlock_ne_null hb

/-! ### The packets -/

/-- With a terminator there is always a last packet, shorter than a full one before it. -/
theorem sendPackets_terminated (m : ℕ) (buffer : List Byte) :
    sendPackets m buffer true = Chunks.blocks m buffer ++ [Chunks.rest m buffer ++ [0x00]] := by
  simp [sendPackets]

theorem carryTerminated {m : ℕ} (hm : 0 < m) {bytes : List Byte} (hne : ∀ b ∈ bytes, b ≠ 0x00) :
    CarryTerminated m bytes (sendPackets m bytes true) := by
  have hflat : (sendPackets m bytes true).flatten = bytes ++ [0x00] := by
    rw [sendPackets_terminated, List.flatten_append, List.flatten_singleton, ← List.append_assoc,
      Chunks.blocks_flatten_append_rest hm]
  refine ⟨hflat, fun p hp => ?_, ?_⟩
  · rw [sendPackets_terminated, List.mem_append, List.mem_singleton] at hp
    rcases hp with hp | rfl
    · have hlen := Chunks.length_of_mem_blocks hm hp
      exact ⟨List.length_pos_iff.mp (by omega), hlen.le⟩
    · have hlt := Nat.mod_lt bytes.length hm
      rw [List.length_append, Chunks.rest_length, List.length_singleton]
      exact ⟨List.append_ne_nil_of_right_ne_nil _ (List.cons_ne_nil _ _), hlt⟩
  · rw [hflat, List.takeWhile_append_of_pos (fun b hb => by simpa using hne b hb)]
    simp

/-- **Signals without compression**: the bytes describe the entries, none of them is a null, and
the packets carry them to a device that reads up to the terminator. -/
theorem uncompressed_send (carrier : Carrier) (sendCode : List (BitVec 32)) :
    DescribesEntries carrier sendCode (pulsesToIguanaSend id carrier.hz sendCode COMPRESS_VER0) ∧
      (∀ b ∈ pulsesToIguanaSend id carrier.hz sendCode COMPRESS_VER0, b ≠ 0x00 ∧ b ≠ 0x80) ∧
      ∀ maxPacketSize, 0 < maxPacketSize →
        (sendData maxPacketSize (pulsesToIguanaSend id carrier.hz sendCode COMPRESS_VER0) true
          none).1 = true ∧
        CarryTerminated maxPacketSize (pulsesToIguanaSend id carrier.hz sendCode COMPRESS_VER0)
          (sendData maxPacketSize (pulsesToIguanaSend id carrier.hz sendCode COMPRESS_VER0) true
            none).2 :=
  ⟨describesEntries_ver0 carrier sendCode, fun _ => pulsesLoop_ver0_ne_null, fun _ hm =>
    ⟨rfl, carryTerminated hm (fun _ hb => (pulsesLoop_ver0_ne_null hb).1)⟩⟩

/-- 26 microseconds at 38 kHz are one cycle; two such entries make a packet of three bytes. -/
theorem uncompressed_send_short : 0 < 8 ∧
    CarryTerminated 8 (pulsesToIguanaSend id defaultCarrier.hz [26, 26] COMPRESS_VER0)
      (sendData 8 (pulsesToIguanaSend id defaultCarrier.hz [26, 26] COMPRESS_VER0) true none).2 :=
  ⟨by decide, ((uncompressed_send defaultCarrier [26, 26]).2.2 8 (by decide)).2⟩

end IguanaIR
