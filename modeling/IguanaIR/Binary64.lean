import Mathlib.Data.Int.Log
import Mathlib.Data.Rat.Floor
import Mathlib.Algebra.Order.Field.Power
import Mathlib.Tactic.Linarith
import Mathlib.Tactic.NormNum
import Mathlib.Tactic.FieldSimp
import Mathlib.Tactic.Ring
import Mathlib.Tactic.Positivity

/-! # Rounding to the nearest double

The value of a C `double` operation is the exact rational result rounded to a significand of
53 bits, ties to even.  `nearest` is that rounding on `ℚ`, for results in the normal range: the
exponent is not bounded here, so overflow and subnormal results are not described.

* `abs_nearest_sub_le`: the relative error is at most `2⁻⁵³`.
* `nearest_of_dyadic`: a number with a significand of 53 bits is its own rounding.
* `nearest_eq`: the rounding of a number whose exponent is known, from its nearest integer
  multiple of the spacing.
* `floor_eq_of_abs_sub_lt`: a small enough error does not change the floor of a quotient that
  is not an integer. -/

namespace Binary64

/-- The nearest integer, ties to even. -/
def roundEven (x : ℚ) : ℤ :=
  if x - ⌊x⌋ < 1 / 2 then ⌊x⌋
  else if 1 / 2 < x - ⌊x⌋ then ⌊x⌋ + 1
  else if ⌊x⌋ % 2 = 0 then ⌊x⌋ else ⌊x⌋ + 1

/-- The spacing of the 53-bit significands around `x`. -/
def spacing (x : ℚ) : ℚ := 2 ^ (Int.log 2 |x| - 52)

/-- The double nearest to `x`, ties to an even significand. -/
def nearest (x : ℚ) : ℚ := roundEven (x / spacing x) * spacing x

theorem spacing_pos (x : ℚ) : 0 < spacing x := by
  unfold spacing
  positivity

theorem abs_roundEven_sub_le (x : ℚ) : |(roundEven x : ℚ) - x| ≤ 1 / 2 := by
  have h₀ := Int.floor_le x
  have h₁ := Int.lt_floor_add_one x
  unfold roundEven
  split_ifs <;> push_cast <;> rw [abs_le] <;> constructor <;> linarith

theorem roundEven_eq {x : ℚ} {n : ℤ} (h : |x - n| < 1 / 2) : roundEven x = n := by
  have hr := abs_roundEven_sub_le x
  rw [abs_le] at hr
  rw [abs_lt] at h
  have h₁ : ((roundEven x : ℤ) : ℚ) < ((n + 1 : ℤ) : ℚ) := by push_cast; linarith
  have h₂ : ((n : ℤ) : ℚ) < ((roundEven x + 1 : ℤ) : ℚ) := by push_cast; linarith
  have h₁' := Int.cast_lt.mp h₁
  have h₂' := Int.cast_lt.mp h₂
  omega

theorem abs_nearest_sub_le_spacing (x : ℚ) : |nearest x - x| ≤ spacing x / 2 := by
  have hs := spacing_pos x
  have h := abs_roundEven_sub_le (x / spacing x)
  have e : nearest x - x = ((roundEven (x / spacing x) : ℚ) - x / spacing x) * spacing x := by
    unfold nearest
    field_simp
  rw [e, abs_mul, abs_of_pos hs]
  calc |(roundEven (x / spacing x) : ℚ) - x / spacing x| * spacing x
      ≤ 1 / 2 * spacing x := mul_le_mul_of_nonneg_right h hs.le
    _ = spacing x / 2 := by ring

/-- **The rounding error** is at most one part in `2⁵³`. -/
theorem abs_nearest_sub_le (x : ℚ) : |nearest x - x| ≤ |x| / 2 ^ 53 := by
  rcases eq_or_ne x 0 with rfl | hx
  · simp [nearest, roundEven]
  refine (abs_nearest_sub_le_spacing x).trans ?_
  have hlog : (2 : ℚ) ^ Int.log 2 |x| ≤ |x| := by
    have := Int.zpow_log_le_self (b := 2) (r := |x|) (by norm_num) (abs_pos.mpr hx)
    exact_mod_cast this
  have e : spacing x = (2 : ℚ) ^ Int.log 2 |x| / 2 ^ 52 := by
    unfold spacing
    rw [zpow_sub₀ (by norm_num : (2 : ℚ) ≠ 0)]
    norm_num
  rw [e]
  have : (2 : ℚ) ^ Int.log 2 |x| / 2 ^ 52 / 2 ≤ |x| / 2 ^ 52 / 2 := by gcongr
  calc (2 : ℚ) ^ Int.log 2 |x| / 2 ^ 52 / 2 ≤ |x| / 2 ^ 52 / 2 := this
    _ = |x| / 2 ^ 53 := by ring

/-- Rounding a number between `2 ^ (k + 52)` and `2 ^ (k + 53)`. -/
theorem nearest_eq {x : ℚ} (k n : ℤ) (hlo : (2 : ℚ) ^ (k + 52) ≤ x) (hhi : x < 2 ^ (k + 53))
    (hn : |x / 2 ^ k - n| < 1 / 2) : nearest x = n * 2 ^ k := by
  have hx : 0 < x := lt_of_lt_of_le (by positivity) hlo
  have hlog : Int.log 2 |x| = k + 52 := by
    rw [abs_of_pos hx]
    have h₁ : k + 52 ≤ Int.log 2 x := by
      rw [← Int.zpow_le_iff_le_log (by norm_num) hx]
      exact_mod_cast hlo
    have h₂ : Int.log 2 x < k + 53 := by
      rw [← Int.lt_zpow_iff_log_lt (by norm_num) hx]
      exact_mod_cast hhi
    omega
  have hs : spacing x = 2 ^ k := by
    unfold spacing
    rw [hlog]
    congr 1
    omega
  unfold nearest
  rw [hs, roundEven_eq hn]

/-- A number with a significand of 53 bits is a double. -/
theorem nearest_of_dyadic {x : ℚ} {m e : ℤ} (hx : x = m * 2 ^ e) (hm : |m| < 2 ^ 53) :
    nearest x = x := by
  rcases eq_or_ne x 0 with rfl | hne
  · simp [nearest, roundEven]
  have hpow : (2 : ℚ) ^ e ≠ 0 := by positivity
  have hlt : |x| < (2 : ℚ) ^ (e + 53) := by
    rw [hx, abs_mul, abs_of_pos (by positivity : (0 : ℚ) < 2 ^ e), zpow_add₀ (by norm_num), mul_comm]
    refine mul_lt_mul_of_pos_left ?_ (by positivity)
    exact_mod_cast hm
  have hlog : Int.log 2 |x| < e + 53 := by
    rw [← Int.lt_zpow_iff_log_lt (by norm_num) (abs_pos.mpr hne)]
    exact_mod_cast hlt
  obtain ⟨d, hd⟩ : ∃ d : ℕ, e - (Int.log 2 |x| - 52) = d :=
    ⟨_, (Int.toNat_of_nonneg (by omega)).symm⟩
  have hdiv : x / spacing x = ((m * 2 ^ d : ℤ) : ℚ) := by
    calc x / spacing x = m * 2 ^ e / spacing x := by rw [← hx]
      _ = m * (2 : ℚ) ^ (e - (Int.log 2 |x| - 52)) := by
          unfold spacing
          rw [mul_div_assoc, ← zpow_sub₀ (by norm_num)]
      _ = ((m * 2 ^ d : ℤ) : ℚ) := by rw [hd, zpow_natCast]; push_cast; ring
  have hr : roundEven (x / spacing x) = m * 2 ^ d := roundEven_eq (by rw [hdiv]; simp)
  unfold nearest
  rw [hr, ← hdiv]
  exact div_mul_cancel₀ x (spacing_pos x).ne'

/-- The error that a rounding adds to one that is there already. -/
theorem abs_nearest_sub_le_of_abs_sub_le {x y e : ℚ} (h : |y - x| ≤ e) :
    |nearest y - x| ≤ e + (|x| + e) / 2 ^ 53 := by
  have hy : |y| ≤ |x| + e := by
    have htri := abs_add_le x (y - x)
    rw [add_sub_cancel] at htri
    linarith
  have hr : |nearest y - y| ≤ (|x| + e) / 2 ^ 53 :=
    (abs_nearest_sub_le y).trans (div_le_div_of_nonneg_right hy (by positivity))
  have htri := abs_add_le (nearest y - y) (y - x)
  rw [sub_add_sub_cancel] at htri
  linarith

/-- A quotient of two roundings is within three roundings of the quotient. -/
theorem abs_nearest_div_nearest_sub_le {x y : ℚ} (hx : 0 < x) (hy : 0 < y) :
    |nearest x / nearest y - x / y| ≤ 3 * (x / y) / 2 ^ 53 := by
  have hex := abs_nearest_sub_le x
  have hey := abs_nearest_sub_le y
  rw [abs_of_pos hx] at hex
  rw [abs_of_pos hy] at hey
  have hlow : y * (1 - 1 / 2 ^ 53) ≤ nearest y := by
    have := (abs_le.mp hey).1
    linarith
  have hpos : 0 < nearest y := lt_of_lt_of_le (by positivity) hlow
  have hsplit : nearest x / nearest y - x / y =
      ((nearest x - x) * y - x * (nearest y - y)) / (nearest y * y) := by
    field_simp
    ring
  have hnum : |(nearest x - x) * y - x * (nearest y - y)| ≤ 2 * x * y / 2 ^ 53 := by
    calc |(nearest x - x) * y - x * (nearest y - y)|
        ≤ |(nearest x - x) * y| + |x * (nearest y - y)| := abs_sub _ _
      _ = |nearest x - x| * y + x * |nearest y - y| := by
          rw [abs_mul, abs_mul, abs_of_pos hx, abs_of_pos hy]
      _ ≤ x / 2 ^ 53 * y + x * (y / 2 ^ 53) := by gcongr
      _ = 2 * x * y / 2 ^ 53 := by ring
  rw [hsplit, abs_div, abs_of_pos (mul_pos hpos hy), div_le_iff₀ (mul_pos hpos hy)]
  refine hnum.trans ?_
  have hxy : 3 * (x / y) / 2 ^ 53 * (nearest y * y) = 3 * x / 2 ^ 53 * nearest y := by
    field_simp
  rw [hxy]
  have hle : 3 * x / 2 ^ 53 * (y * (1 - 1 / 2 ^ 53)) ≤ 3 * x / 2 ^ 53 * nearest y := by gcongr
  have hpq : 0 ≤ x * y := (mul_pos hx hy).le
  nlinarith

/-- A quotient of naturals that is not an integer keeps its floor under a small error. -/
theorem floor_eq_of_abs_sub_lt {n d : ℕ} {y : ℚ} (hd : 0 < d) (hmod : n % d ≠ 0)
    (h : |y - n / d| < 1 / d) : ⌊y⌋ = ((n / d : ℕ) : ℤ) := by
  have hd' : (0 : ℚ) < d := by exact_mod_cast hd
  have hn : (n : ℚ) = d * (n / d : ℕ) + (n % d : ℕ) := by exact_mod_cast (Nat.div_add_mod n d).symm
  have hr₁ : (1 : ℚ) ≤ (n % d : ℕ) := by exact_mod_cast Nat.one_le_iff_ne_zero.mpr hmod
  have hr₂ : ((n % d : ℕ) : ℚ) + 1 ≤ d := by exact_mod_cast Nat.mod_lt n hd
  have e : (n : ℚ) / d = (n / d : ℕ) + (n % d : ℕ) / d := by
    rw [hn]
    field_simp
  have h₁ : (1 : ℚ) / d ≤ (n % d : ℕ) / d := by gcongr
  have h₂ : ((n % d : ℕ) : ℚ) / d + 1 / d ≤ 1 := by
    rw [← add_div, div_le_one hd']
    exact hr₂
  rw [abs_lt, e] at h
  rw [Int.floor_eq_iff, Int.cast_natCast]
  constructor <;> linarith

end Binary64
