import Mathlib.Data.List.Basic
import Mathlib.Data.List.Perm.Subperm
import Mathlib.Order.Bounds.Defs

/-! # The least unused number

A number is looked for by passes over the list of those in use, in the order of the list: each
entry that is equal to the candidate moves it on by one, and a pass that moves nothing ends the
search.  The list needs not be sorted, so one pass may step over an entry that it meets too early;
`searchLoop_spec` says that the passes end, and where: at the least number that is not in the
list. -/

namespace LeastUnused

/-- One entry of a pass. -/
def next (n used : ℕ) : ℕ := if used = n then n + 1 else n

/-- A pass over the list. -/
def pass (used : List ℕ) (n : ℕ) : ℕ := used.foldl next n

/-- Passes until one moves nothing, if `fuel` passes are enough. -/
def searchLoop : ℕ → List ℕ → ℕ → Option ℕ
  | 0, _, _ => none
  | fuel + 1, used, n => if pass used n = n then some n else searchLoop fuel used (pass used n)

theorem le_next (n used : ℕ) : n ≤ next n used := by
  unfold next
  split_ifs <;> omega

theorem le_pass (used : List ℕ) (n : ℕ) : n ≤ pass used n := by
  induction used generalizing n with
  | nil => exact Nat.le_refl n
  | cons u used ih => exact Nat.le_trans (le_next n u) (ih (next n u))

/-- A pass steps over numbers in use only. -/
theorem mem_of_lt_pass {used : List ℕ} {n k : ℕ} (hle : n ≤ k) (hlt : k < pass used n) :
    k ∈ used := by
  induction used generalizing n with
  | nil => exact absurd hlt (Nat.not_lt.mpr hle)
  | cons u used ih =>
      change k < pass used (next n u) at hlt
      by_cases hk : next n u ≤ k
      · exact List.mem_cons_of_mem _ (ih hk hlt)
      · have hu : u = k := by
          unfold next at hk
          split_ifs at hk with heq
          · omega
          · exact absurd hle hk
        rw [hu]
        exact List.mem_cons_self ..

/-- A pass that moves nothing has met no entry that is equal to the candidate. -/
theorem pass_eq_iff {used : List ℕ} {n : ℕ} : pass used n = n ↔ n ∉ used := by
  constructor
  · intro hpass hmem
    induction used with
    | nil => cases hmem
    | cons u used ih =>
        change pass used (next n u) = n at hpass
        have hnext : next n u = n := by
          have hle := le_next n u
          have hle' := le_pass used (next n u)
          omega
        rw [hnext] at hpass
        cases List.mem_cons.mp hmem with
        | inl heq =>
            rw [next, if_pos heq.symm] at hnext
            omega
        | inr hrest => exact ih hpass hrest
  · intro hmem
    by_contra hpass
    have hlt : n < pass used n := Nat.lt_of_le_of_ne (le_pass used n) (Ne.symm hpass)
    exact hmem (mem_of_lt_pass (Nat.le_refl n) hlt)

/-- The entries from the candidate on, which every pass but the last makes fewer. -/
def left (used : List ℕ) (n : ℕ) : ℕ := (used.filter (n ≤ ·)).length

theorem left_le (used : List ℕ) (n : ℕ) : left used n ≤ used.length := List.length_filter_le ..

theorem left_lt {used : List ℕ} {n m : ℕ} (hn : n ∈ used) (hlt : n < m) :
    left used m < left used n := by
  have hsub : used.filter (m ≤ ·) = (used.filter (n ≤ ·)).filter (m ≤ ·) := by
    rw [List.filter_filter]
    apply List.filter_congr
    intro k _
    by_cases hk : m ≤ k
    · simp [hk, Nat.le_trans (Nat.le_of_lt hlt) hk]
    · simp [hk]
  unfold left
  rw [hsub, List.length_filter_lt_length_iff_exists]
  refine ⟨n, List.mem_filter.mpr ⟨hn, by simp⟩, ?_⟩
  simpa using hlt

/-- **The search ends** at the least number that is not in use, from any candidate below which all
are. -/
theorem searchLoop_spec {used : List ℕ} {fuel n : ℕ} (hfuel : left used n < fuel)
    (hbelow : ∀ k < n, k ∈ used) :
    ∃ m, searchLoop fuel used n = some m ∧ IsLeast {k | k ∉ used} m := by
  induction fuel generalizing n with
  | zero => omega
  | succ fuel ih =>
      rw [searchLoop]
      by_cases hpass : pass used n = n
      · rw [if_pos hpass]
        refine ⟨n, rfl, pass_eq_iff.mp hpass, ?_⟩
        intro k hk
        by_contra hlt
        exact hk (hbelow k (Nat.lt_of_not_le hlt))
      · rw [if_neg hpass]
        have hmem : n ∈ used := by
          by_contra hnot
          exact hpass (pass_eq_iff.mpr hnot)
        have hlt : n < pass used n := Nat.lt_of_le_of_ne (le_pass used n) (Ne.symm hpass)
        apply ih
        · have hleft := left_lt hmem hlt
          omega
        · intro k hk
          by_cases hkn : k < n
          · exact hbelow k hkn
          · exact mem_of_lt_pass (Nat.le_of_not_lt hkn) hk

/-- One pass more than there are entries is enough. -/
theorem search_spec (used : List ℕ) :
    ∃ m, searchLoop (used.length + 1) used 0 = some m ∧ IsLeast {k | k ∉ used} m :=
  searchLoop_spec (Nat.lt_succ_of_le (left_le used 0)) (fun k hk => absurd hk (Nat.not_lt_zero k))

/-- The least unused number is at most the number of those in use. -/
theorem le_length_of_isLeast {used : List ℕ} {m : ℕ} (h : IsLeast {k | k ∉ used} m) :
    m ≤ used.length := by
  have hsub : List.range m ⊆ used := by
    intro k hk
    by_contra hnot
    exact absurd (h.2 hnot) (Nat.not_le.mpr (List.mem_range.mp hk))
  have hlength := (List.nodup_range.subperm hsub).length_le
  rwa [List.length_range] at hlength

end LeastUnused
