import Mathlib.Algebra.BigOperators.Group.List.Basic
import Mathlib.Algebra.GroupWithZero.Nat

/-! # Run lists

A signal is a list of pairs of a level and a length.  `merge` joins neighbours of equal level
and drops pairs of length zero, so two lists with the same `merge` describe the same signal.
`push` puts one pair in front of a merged list; `push_push` is why joining is associative
(`merge_append`).  `total s` is the time spent at level `s`, which merging leaves alone
(`total_merge`). -/

namespace Runs

variable {σ : Type} [DecidableEq σ]

/-- Put `n` units of level `s` in front of a merged list. -/
def push (s : σ) (n : ℕ) : List (σ × ℕ) → List (σ × ℕ)
  | [] => if n = 0 then [] else [(s, n)]
  | (t, m) :: l =>
      if n = 0 then (t, m) :: l
      else if s = t then (t, n + m) :: l
      else (s, n) :: (t, m) :: l

/-- Join neighbours of equal level and drop what has no length. -/
def merge (l : List (σ × ℕ)) : List (σ × ℕ) := l.foldr (fun p acc => push p.1 p.2 acc) []

/-- The time spent at level `s`. -/
def total (s : σ) (l : List (σ × ℕ)) : ℕ := (l.map (fun p => if p.1 = s then p.2 else 0)).sum

@[simp] theorem push_zero (s : σ) (l : List (σ × ℕ)) : push s 0 l = l := by
  cases l <;> simp [push]

theorem push_push (s : σ) (n m : ℕ) (l : List (σ × ℕ)) : push s n (push s m l) = push s (n + m) l := by
  rcases Nat.eq_zero_or_pos m with rfl | hm
  · simp
  have hm' : m ≠ 0 := by omega
  rcases Nat.eq_zero_or_pos n with rfl | hn
  · simp
  have hn' : n ≠ 0 := by omega
  cases l with
  | nil => simp [push, hm', hn']
  | cons p l =>
      obtain ⟨t, k⟩ := p
      by_cases hst : s = t
      · simp [push, hst, hm', hn', Nat.add_assoc]
      · simp [push, hst, hm', hn']

/-- A push leaves its level in front. -/
theorem push_head (s : σ) {n : ℕ} (hn : 0 < n) (l : List (σ × ℕ)) :
    ∃ m l', push s n l = (s, m) :: l' ∧ n ≤ m := by
  have hn' : n ≠ 0 := by omega
  cases l with
  | nil => exact ⟨n, [], by simp [push, hn'], Nat.le_refl n⟩
  | cons p l =>
      obtain ⟨t, k⟩ := p
      by_cases hst : s = t
      · subst hst
        exact ⟨n + k, l, by simp [push, hn'], Nat.le_add_right n k⟩
      · exact ⟨n, (t, k) :: l, by simp [push, hn', hst], Nat.le_refl n⟩

theorem push_other {s t : σ} {n m : ℕ} (hst : s ≠ t) (hn : 0 < n) (hm : 0 < m) (l : List (σ × ℕ)) :
    push s n (push t m l) = (s, n) :: push t m l := by
  have hn' : n ≠ 0 := by omega
  obtain ⟨k, l', h, -⟩ := push_head t hm l
  rw [h]
  simp [push, hn', hst]

@[simp] theorem merge_nil : merge ([] : List (σ × ℕ)) = [] := rfl

@[simp] theorem merge_cons (s : σ) (n : ℕ) (l : List (σ × ℕ)) :
    merge ((s, n) :: l) = push s n (merge l) := rfl

theorem merge_append (l₁ l₂ : List (σ × ℕ)) :
    merge (l₁ ++ l₂) = l₁.foldr (fun p acc => push p.1 p.2 acc) (merge l₂) := by
  simp [merge, List.foldr_append]

/-- A list of one level is one push of its total. -/
theorem foldr_push_same (s : σ) (ns : List ℕ) (l : List (σ × ℕ)) :
    (ns.map (fun n => (s, n))).foldr (fun p acc => push p.1 p.2 acc) l = push s ns.sum l := by
  induction ns with
  | nil => simp
  | cons n ns ih => simp [ih, push_push]

theorem merge_same_append (s : σ) (ns : List ℕ) (l : List (σ × ℕ)) :
    merge (ns.map (fun n => (s, n)) ++ l) = push s ns.sum (merge l) := by
  rw [merge_append, foldr_push_same]

@[simp] theorem total_nil (s : σ) : total s [] = 0 := rfl

@[simp] theorem total_cons (s t : σ) (n : ℕ) (l : List (σ × ℕ)) :
    total s ((t, n) :: l) = (if t = s then n else 0) + total s l := by
  simp [total]

theorem total_append (s : σ) (l₁ l₂ : List (σ × ℕ)) :
    total s (l₁ ++ l₂) = total s l₁ + total s l₂ := by
  simp [total]

theorem total_push (s t : σ) (n : ℕ) (l : List (σ × ℕ)) :
    total s (push t n l) = (if t = s then n else 0) + total s l := by
  rcases Nat.eq_zero_or_pos n with rfl | hn
  · simp
  have hn' : n ≠ 0 := by omega
  cases l with
  | nil => simp [push, hn']
  | cons p l =>
      obtain ⟨u, m⟩ := p
      by_cases htu : t = u
      · subst htu
        by_cases hts : t = s <;> simp [push, hn', hts, Nat.add_assoc]
      · simp [push, hn', htu]

theorem total_merge (s : σ) (l : List (σ × ℕ)) : total s (merge l) = total s l := by
  induction l with
  | nil => rfl
  | cons p l ih =>
      obtain ⟨t, n⟩ := p
      rw [merge_cons, total_push, ih, total_cons]

end Runs
