import IguanaIR.Carrier
import IguanaIR.Firmware.Timing
import Mathlib.Algebra.Order.Floor.Semifield

/-! # Exactness of the carrier

The time of half a carrier period that the firmware takes with the offsets of
`computeCarrierDelays`, against the rational number it should be.  The double computation gives
the nearest number of cycles for every carrier that can be stored; the split into sevens and fours
is right for all of them but 82, where three sevens are more than there is to wait. -/

namespace IguanaIR

open Firmware Binary64

/-- `12000000 / carrier` rounded to the nearest integer, a half upwards. -/
def nearestCycles (carrier : Carrier) : ℕ := ⌊(12000000 / carrier.hz + 1 / 2 : ℚ)⌋₊

/-- What the offsets are to do: no subtraction on the way to them wraps (`110 - fours`, a byte,
would be above 110), they are in the range of the blocks, and the loop takes the right time. -/
structure CarrierExact (fl : ℚ → ℚ) (carrier : Carrier) (loopCycles : Byte) : Prop where
  loop_le : loopCycles.toNat ≤ carrierCycles fl carrier.hz
  sevens_le : (sevens (BitVec.ofNat 32 (carrierCycles fl carrier.hz) -
    loopCycles.setWidth 32)).toNat * 7 + loopCycles.toNat ≤ carrierCycles fl carrier.hz
  offset_le : (computeCarrierDelays fl carrier loopCycles).1.toNat ≤ 8 ∧
    (computeCarrierDelays fl carrier loopCycles).2.toNat ≤ 110
  even : 2 ∣ (computeCarrierDelays fl carrier loopCycles).1.toNat
  time : halfPeriod (computeCarrierDelays fl carrier loopCycles).1
    (computeCarrierDelays fl carrier loopCycles).2 = some (nearestCycles carrier)

/-! ### The double computation -/

/-- The cycles of half a period with the half that rounds them: the error of the `double`
computation is less than the distance of two such quotients. -/
theorem abs_cycles_sub_lt (carrier : Carrier) :
    |nearest (nearest (nearest (nearest (1 / carrier.hz) / nearest (1 / 24000000)) / 2) + 1 / 2) -
      ((24000000 + carrier.hz : ℕ) : ℚ) / ((2 * carrier.hz : ℕ) : ℚ)| <
      1 / ((2 * carrier.hz : ℕ) : ℚ) := by
  have hlow : (25000 : ℚ) ≤ carrier.hz := by exact_mod_cast carrier.low
  have hhigh : (carrier.hz : ℚ) ≤ 150000 := by exact_mod_cast carrier.high
  have hpos : (0 : ℚ) < carrier.hz := by linarith
  have hq : (1 : ℚ) / carrier.hz / (1 / 24000000) = 24000000 / carrier.hz := by field_simp
  have hq₀ : (0 : ℚ) < 24000000 / carrier.hz := by positivity
  have hq₁ : (24000000 : ℚ) / carrier.hz ≤ 960 := by
    rw [div_le_iff₀ hpos]
    linarith
  have h₁ := abs_nearest_div_nearest_sub_le (one_div_pos.mpr hpos)
    (by norm_num : (0 : ℚ) < 1 / 24000000)
  rw [hq] at h₁
  have h₂ := abs_nearest_sub_le_of_abs_sub_le h₁
  rw [abs_of_pos hq₀] at h₂
  have h₃ : |nearest (nearest (1 / carrier.hz) / nearest (1 / 24000000)) / 2 -
      24000000 / carrier.hz / 2| ≤ 1921 / 2 ^ 53 := by
    rw [← sub_div, abs_div, abs_of_pos (by norm_num : (0 : ℚ) < 2)]
    linarith
  have h₄ := abs_nearest_sub_le_of_abs_sub_le h₃
  rw [abs_of_pos (half_pos hq₀)] at h₄
  have h₅ := abs_nearest_sub_le_of_abs_sub_le
    ((add_sub_add_right_eq_sub _ _ (1 / 2 : ℚ)).symm ▸ h₄)
  rw [abs_of_pos (by linarith : (0 : ℚ) < 24000000 / carrier.hz / 2 + 1 / 2)] at h₅
  have hsum : ((24000000 + carrier.hz : ℕ) : ℚ) / ((2 * carrier.hz : ℕ) : ℚ) =
      24000000 / carrier.hz / 2 + 1 / 2 := by
    push_cast
    field_simp
  have hsmall : (1 : ℚ) / 300000 ≤ 1 / ((2 * carrier.hz : ℕ) : ℚ) := by
    push_cast
    exact one_div_le_one_div_of_le (by linarith) (by linarith)
  rw [hsum]
  linarith

/-- The two carriers with a number of cycles and a half in half a period stand on the boundary of
the rounding, so their quotients are followed bit by bit. -/
theorem carrierCycles_of_quotient (hz : ℕ) {k : ℤ} (h₀ : 0 < k) (hk : k < 1024)
    (h : nearest (nearest (1 / hz) / nearest (1 / 24000000)) = 2 * k - 1) :
    (carrierCycles nearest hz : ℤ) = k := by
  have h₁ : nearest ((2 * k - 1) / 2) = (2 * k - 1) / 2 := by
    refine nearest_of_dyadic (m := 2 * k - 1) (e := -1) (by push_cast; ring) ?_
    rw [abs_lt]
    omega
  have h₂ : nearest ((2 * k - 1) / 2 + 1 / 2) = k := by
    have he : ((2 * k - 1) / 2 + 1 / 2 : ℚ) = k := by ring
    rw [he]
    refine nearest_of_dyadic (m := k) (e := 0) (by simp) ?_
    rw [abs_lt]
    omega
  rw [carrierCycles, h, h₁, h₂, Int.natCast_floor_eq_floor (by exact_mod_cast h₀.le),
    Int.floor_intCast]

theorem nearest_one_div_24000000 :
    nearest (1 / 24000000) = (6296488643826194 : ℤ) * (2 : ℚ) ^ (-77 : ℤ) := by
  apply nearest_eq <;> norm_num [zpow_neg, abs_lt]

theorem carrierCycles_38400 : carrierCycles nearest 38400 = 313 := by
  have h : nearest (1 / (38400 : ℕ)) = (7686143364045647 : ℤ) * (2 : ℚ) ^ (-68 : ℤ) := by
    apply nearest_eq <;> norm_num [zpow_neg, abs_lt]
  have := carrierCycles_of_quotient 38400 (k := 313) (by decide) (by decide) (by
    rw [h, nearest_one_div_24000000, nearest_eq (-43) (625 * 2 ^ 43)] <;>
      norm_num [zpow_neg, abs_lt])
  exact_mod_cast this

theorem carrierCycles_64000 : carrierCycles nearest 64000 = 188 := by
  have h : nearest (1 / (64000 : ℕ)) = (4611686018427388 : ℤ) * (2 : ℚ) ^ (-68 : ℤ) := by
    apply nearest_eq <;> norm_num [zpow_neg, abs_lt]
  have := carrierCycles_of_quotient 64000 (k := 188) (by decide) (by decide) (by
    rw [h, nearest_one_div_24000000, nearest_eq (-44) (375 * 2 ^ 44)] <;>
      norm_num [zpow_neg, abs_lt])
  exact_mod_cast this

/-- A whole number of cycles and a half happens at 38400 and at 64000 only. -/
theorem hz_of_mod_eq_zero (carrier : Carrier)
    (h : (24000000 + carrier.hz) % (2 * carrier.hz) = 0) :
    carrier.hz = 38400 ∨ carrier.hz = 64000 := by
  have hlow := carrier.low
  have hhigh := carrier.high
  obtain ⟨k, hk⟩ := Nat.dvd_of_mod_eq_zero h
  have h₀ : 80 ≤ k := by
    by_contra hlt
    have : 2 * carrier.hz * k ≤ 2 * carrier.hz * 79 := Nat.mul_le_mul_left _ (by omega)
    omega
  have h₁ : k < 481 := by
    by_contra hlt
    have : 2 * carrier.hz * 481 ≤ 2 * carrier.hz * k := Nat.mul_le_mul_left _ (by omega)
    omega
  have hdvd : ∀ k < 481, 80 ≤ k → 24000000 % (2 * k - 1) = 0 → k = 313 ∨ k = 188 ∨
    24000000 / (2 * k - 1) < 25000 ∨ 150000 < 24000000 / (2 * k - 1) := by decide +kernel
  have hmul : 24000000 = (2 * k - 1) * carrier.hz := by
    zify [show 1 ≤ 2 * k by omega]
    zify at hk
    linarith
  have hdiv : 24000000 / (2 * k - 1) = carrier.hz := by
    rw [hmul]
    exact Nat.mul_div_cancel_left _ (by omega)
  rcases hdvd k h₁ h₀ (by rw [hmul]; exact Nat.mul_mod_right _ _) with rfl | rfl | h | h
  · omega
  · omega
  · omega
  · omega

/-- The `double` computation gives the integer nearest to the exact quotient. -/
theorem carrierCycles_nearest (carrier : Carrier) :
    carrierCycles nearest carrier.hz = (24000000 + carrier.hz) / (2 * carrier.hz) := by
  have hpos : 0 < 2 * carrier.hz := by
    have := carrier.low
    omega
  by_cases hmod : (24000000 + carrier.hz) % (2 * carrier.hz) = 0
  · rcases hz_of_mod_eq_zero carrier hmod with h | h
    · rw [h, carrierCycles_38400]
    · rw [h, carrierCycles_64000]
  · have := floor_eq_of_abs_sub_lt hpos hmod (abs_cycles_sub_lt carrier)
    rw [carrierCycles, ← Int.floor_toNat, this, Int.toNat_natCast]

theorem nearestCycles_eq (carrier : Carrier) :
    nearestCycles carrier = (24000000 + carrier.hz) / (2 * carrier.hz) := by
  have hne : (carrier.hz : ℚ) ≠ 0 := by
    have := carrier.low
    positivity
  have he : (12000000 / carrier.hz + 1 / 2 : ℚ) =
      ((24000000 + carrier.hz : ℕ) : ℚ) / ((2 * carrier.hz : ℕ) : ℚ) := by
    push_cast
    field_simp
    ring
  rw [nearestCycles, he, Nat.floor_div_eq_div]

/-! ### The split -/

theorem nearestCycles_bounds (carrier : Carrier) :
    80 ≤ nearestCycles carrier ∧ nearestCycles carrier < 481 := by
  have hlow := carrier.low
  have hhigh := carrier.high
  rw [nearestCycles_eq, Nat.le_div_iff_mul_le (by omega), Nat.div_lt_iff_lt_mul (by omega)]
  omega

/-- The split into sevens and fours, for every number of cycles that a carrier can have. -/
theorem split_exact (k : ℕ) (h₀ : 80 ≤ k) (h₁ : k < 481) :
    (LOOP_CYCLES.toNat ≤ k ∧
      (sevens (BitVec.ofNat 32 k - LOOP_CYCLES.setWidth 32)).toNat * 7 + LOOP_CYCLES.toNat ≤ k ∧
      ((delayOffsets (BitVec.ofNat 32 k) LOOP_CYCLES).1.toNat ≤ 8 ∧
        (delayOffsets (BitVec.ofNat 32 k) LOOP_CYCLES).2.toNat ≤ 110) ∧
      2 ∣ (delayOffsets (BitVec.ofNat 32 k) LOOP_CYCLES).1.toNat ∧
      halfPeriod (delayOffsets (BitVec.ofNat 32 k) LOOP_CYCLES).1
        (delayOffsets (BitVec.ofNat 32 k) LOOP_CYCLES).2 = some k) ↔ k ≠ 82 := by
  revert k
  decide +kernel

/-- The carriers with 82 cycles in half a period. -/
theorem nearestCycles_eq_82 (carrier : Carrier) :
    nearestCycles carrier = 82 ↔ 145455 ≤ carrier.hz ∧ carrier.hz ≤ 147239 := by
  have hlow := carrier.low
  rw [nearestCycles_eq, Nat.div_eq_iff (by omega)]
  omega

/-- **The delays are exact** for every requested frequency but those from 145455 Hz to
147239 Hz, whose 17 cycles next to the overhead hold no three sevens. -/
theorem carrierExact_iff (frequency : BitVec 32) :
    CarrierExact nearest (clampCarrier frequency) LOOP_CYCLES ↔
      ¬ (145455 ≤ frequency.toNat ∧ frequency.toNat ≤ 147239) := by
  have hclamp := clampCarrier_hz frequency
  generalize hcarrier : clampCarrier frequency = carrier at hclamp ⊢
  have hcycles : carrierCycles nearest carrier.hz = nearestCycles carrier := by
    rw [carrierCycles_nearest, nearestCycles_eq]
  obtain ⟨h₀, h₁⟩ := nearestCycles_bounds carrier
  have hsplit := split_exact (nearestCycles carrier) h₀ h₁
  have hrange : (145455 ≤ frequency.toNat ∧ frequency.toNat ≤ 147239) ↔
      nearestCycles carrier = 82 := by
    rw [nearestCycles_eq_82]
    omega
  rw [hrange, ← ne_eq, ← hsplit]
  constructor
  · intro h
    have ht := h.time
    have ho := h.offset_le
    have he := h.even
    rw [computeCarrierDelays, hcycles] at ht ho he
    exact ⟨hcycles ▸ h.loop_le, hcycles ▸ h.sevens_le, ho, he, ht⟩
  · rintro ⟨hloop, hsevens, ho, he, ht⟩
    constructor <;> simp only [computeCarrierDelays, hcycles] <;> assumption

/-- At 146000 Hz, which may be requested and is stored, the time of half a period is not met. -/
theorem carrier_not_exact :
    ¬ ∀ frequency : BitVec 32, CarrierExact nearest (clampCarrier frequency) LOOP_CYCLES := by
  intro h
  have hle := (h 146000).offset_le.2
  have hc : carrierCycles nearest (clampCarrier 146000).hz = 82 := by
    rw [carrierCycles_nearest]
    decide
  rw [computeCarrierDelays, hc] at hle
  exact absurd hle (by decide)

end IguanaIR
