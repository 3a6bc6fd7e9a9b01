import IguanaIR.Runs
import Mathlib.Data.List.Forall2
import Mathlib.Algebra.Order.Group.Nat

/-! # Signals that are scaled in pieces

A signal is cut into pieces, the runs of each piece are scaled, and the pieces are joined again.
The scaling rounds down, so what the joined runs come to depends on the cuts, but only between two
bounds that do not: every entry scaled by itself, and every whole run scaled at once
(`merge_pieces`). -/

namespace Runs

variable {σ : Type}

/-- The same levels, none of them for longer. -/
def Le (l l' : List (σ × ℕ)) : Prop := List.Forall₂ (fun p q => p.1 = q.1 ∧ p.2 ≤ q.2) l l'

/-- Every length is scaled. -/
def scale (f : ℕ → ℕ) (l : List (σ × ℕ)) : List (σ × ℕ) := l.map (fun p => (p.1, f p.2))

@[simp] theorem scale_nil (f : ℕ → ℕ) : scale f ([] : List (σ × ℕ)) = [] := rfl

@[simp] theorem scale_cons (f : ℕ → ℕ) (s : σ) (n : ℕ) (l : List (σ × ℕ)) :
    scale f ((s, n) :: l) = (s, f n) :: scale f l := rfl

theorem scale_flatten (f : ℕ → ℕ) (ls : List (List (σ × ℕ))) :
    scale f ls.flatten = (ls.map (scale f)).flatten := List.map_flatten

/-! ### The order -/

section order
variable {l l' l₁ l₂ l₃ : List (σ × ℕ)}

theorem Le.nil : Le ([] : List (σ × ℕ)) [] := List.Forall₂.nil

theorem Le.cons (s : σ) {n m : ℕ} (hnm : n ≤ m) (h : Le l l') : Le ((s, n) :: l) ((s, m) :: l') :=
  List.Forall₂.cons ⟨rfl, hnm⟩ h

theorem Le.refl (l : List (σ × ℕ)) : Le l l := by
  induction l with
  | nil => exact Le.nil
  | cons p l ih => exact ih.cons p.1 (Nat.le_refl p.2)

theorem Le.trans (h : Le l₁ l₂) (h' : Le l₂ l₃) : Le l₁ l₃ := by
  induction h generalizing l₃ with
  | nil => exact h'
  | cons hpq _ ih =>
      cases h' with
      | cons hqr hrest =>
          exact List.Forall₂.cons ⟨hpq.1.trans hqr.1, hpq.2.trans hqr.2⟩ (ih hrest)

theorem Le.append (h : Le l₁ l₂) (h' : Le l l') : Le (l₁ ++ l) (l₂ ++ l') := List.rel_append h h'

theorem Le.scale_mono {f : ℕ → ℕ} (hf : Monotone f) (h : Le l l') : Le (scale f l) (scale f l') := by
  induction h with
  | nil => exact Le.nil
  | cons hpq _ ih => exact List.Forall₂.cons ⟨hpq.1, hf hpq.2⟩ ih

/-- Piece by piece. -/
theorem Le.flatten {g g' : List (σ × ℕ) → List (σ × ℕ)} (h : ∀ l, Le (g l) (g' l))
    (ls : List (List (σ × ℕ))) : Le (ls.map g).flatten (ls.map g').flatten := by
  induction ls with
  | nil => exact Le.nil
  | cons l ls ih => exact (h l).append ih

end order

/-! ### Merging -/

variable [DecidableEq σ]

theorem push_nil (s : σ) {n : ℕ} (hn : 0 < n) : push s n [] = [(s, n)] := if_neg (by omega)

theorem push_same (s : σ) {n : ℕ} (m : ℕ) (l : List (σ × ℕ)) (hn : 0 < n) :
    push s n ((s, m) :: l) = (s, n + m) :: l := by
  have hn' : n ≠ 0 := by omega
  simp [push, hn']

theorem push_ne {s t : σ} {n : ℕ} (m : ℕ) (l : List (σ × ℕ)) (hn : 0 < n) (hst : s ≠ t) :
    push s n ((t, m) :: l) = (s, n) :: (t, m) :: l := by
  have hn' : n ≠ 0 := by omega
  simp [push, hn', hst]

theorem push_pos (s : σ) (n : ℕ) {l : List (σ × ℕ)} (h : ∀ p ∈ l, 0 < p.2) :
    ∀ p ∈ push s n l, 0 < p.2 := by
  rcases Nat.eq_zero_or_pos n with rfl | hn
  · simpa using h
  · rcases l with - | ⟨⟨t, m⟩, l⟩
    · simpa [push_nil s hn] using hn
    · by_cases hst : s = t
      · subst hst
        rw [push_same s m l hn]
        intro p hp
        rcases List.mem_cons.mp hp with rfl | hp
        · simp only
          omega
        · exact h p (List.mem_cons_of_mem _ hp)
      · rw [push_ne m l hn hst]
        intro p hp
        rcases List.mem_cons.mp hp with rfl | hp
        · exact hn
        · exact h p hp

/-- Merged runs have a length. -/
theorem merge_pos (l : List (σ × ℕ)) : ∀ p ∈ merge l, 0 < p.2 := by
  induction l with
  | nil => simp
  | cons p l ih => exact push_pos p.1 p.2 ih

theorem mem_push {s : σ} {n : ℕ} {p : σ × ℕ} {l : List (σ × ℕ)} (h : p ∈ push s n l) :
    p.1 = s ∨ ∃ q ∈ l, q.1 = p.1 := by
  rcases Nat.eq_zero_or_pos n with rfl | hn
  · rw [push_zero] at h
    exact .inr ⟨p, h, rfl⟩
  · rcases l with - | ⟨⟨t, m⟩, l⟩
    · rw [push_nil s hn] at h
      exact .inl (by rw [List.mem_singleton.mp h])
    · by_cases hst : s = t
      · subst hst
        rw [push_same s m l hn] at h
        rcases List.mem_cons.mp h with rfl | h
        · exact .inl rfl
        · exact .inr ⟨p, List.mem_cons_of_mem _ h, rfl⟩
      · rw [push_ne m l hn hst] at h
        rcases List.mem_cons.mp h with rfl | h
        · exact .inl rfl
        · exact .inr ⟨p, h, rfl⟩

/-- Merging makes no new levels. -/
theorem mem_merge {p : σ × ℕ} {l : List (σ × ℕ)} (h : p ∈ merge l) : ∃ q ∈ l, q.1 = p.1 := by
  induction l generalizing p with
  | nil => cases h
  | cons q l ih =>
      rcases mem_push h with hq | ⟨r, hr, hrp⟩
      · exact ⟨q, List.mem_cons_self .., hq.symm⟩
      · obtain ⟨r', hr', heq⟩ := ih hr
        exact ⟨r', List.mem_cons_of_mem _ hr', heq.trans hrp⟩

/-- A run is part of the time at its level. -/
theorem le_total {p : σ × ℕ} {l : List (σ × ℕ)} (h : p ∈ l) : p.2 ≤ total p.1 l := by
  induction l with
  | nil => cases h
  | cons q l ih =>
      rw [total_cons]
      rcases List.mem_cons.mp h with rfl | h
      · simp
      · have hle := ih h
        omega

theorem push_mono (s : σ) {n m : ℕ} {l l' : List (σ × ℕ)} (hnm : n ≤ m) (hzero : n = 0 → m = 0)
    (h : Le l l') : Le (push s n l) (push s m l') := by
  rcases Nat.eq_zero_or_pos n with rfl | hn
  · simpa [hzero rfl] using h
  · have hm : 0 < m := by omega
    cases h with
    | nil =>
        rw [push_nil s hn, push_nil s hm]
        exact Le.nil.cons s hnm
    | @cons p q l l' hpq hrest =>
        obtain ⟨t, a⟩ := p
        obtain ⟨t', b⟩ := q
        obtain ⟨rfl, hab⟩ : t = t' ∧ a ≤ b := hpq
        by_cases hst : s = t
        · subst hst
          rw [push_same s a l hn, push_same s b l' hm]
          exact Le.cons s (Nat.add_le_add hnm hab) hrest
        · rw [push_ne a l hn hst, push_ne b l' hm hst]
          exact Le.cons s hnm (Le.cons t hab hrest)

theorem merge_mono {l l' : List (σ × ℕ)} (h : Le l l') (hpos : ∀ p ∈ l, 0 < p.2) :
    Le (merge l) (merge l') := by
  induction h with
  | nil => exact Le.nil
  | @cons p q l l' hpq _ ih =>
      obtain ⟨s, n⟩ := p
      obtain ⟨t, m⟩ := q
      obtain ⟨rfl, hnm⟩ : s = t ∧ n ≤ m := hpq
      have hn : 0 < n := hpos (s, n) (List.mem_cons_self ..)
      rw [merge_cons, merge_cons]
      exact push_mono s hnm (by omega) (ih (fun p hp => hpos p (List.mem_cons_of_mem _ hp)))

theorem foldr_push (s : σ) (n : ℕ) (l acc : List (σ × ℕ)) :
    (push s n l).foldr (fun p acc => push p.1 p.2 acc) acc =
      push s n (l.foldr (fun p acc => push p.1 p.2 acc) acc) := by
  rcases Nat.eq_zero_or_pos n with rfl | hn
  · simp
  · rcases l with - | ⟨⟨t, m⟩, l⟩
    · simp [push_nil s hn]
    · by_cases hst : s = t
      · subst hst
        rw [push_same s m l hn, List.foldr_cons, List.foldr_cons, push_push]
      · rw [push_ne m l hn hst, List.foldr_cons]

/-- What is merged already can be merged with more. -/
theorem foldr_merge (l acc : List (σ × ℕ)) :
    (merge l).foldr (fun p acc => push p.1 p.2 acc) acc =
      l.foldr (fun p acc => push p.1 p.2 acc) acc := by
  induction l with
  | nil => rfl
  | cons p l ih =>
      obtain ⟨s, n⟩ := p
      rw [merge_cons, foldr_push, ih, List.foldr_cons]

/-- Pieces may be merged before they are joined. -/
theorem merge_flatten (ls : List (List (σ × ℕ))) :
    merge (ls.map merge).flatten = merge ls.flatten := by
  induction ls with
  | nil => rfl
  | cons l ls ih => rw [List.map_cons, List.flatten_cons, List.flatten_cons, merge_append, ih,
      foldr_merge, ← merge_append]

/-! ### Trimming -/

/-- Without the entries of these levels in front, and without one at the end. -/
def trim (P : σ → Bool) (l : List (σ × ℕ)) : List (σ × ℕ) :=
  let l := l.dropWhile (fun p => P p.1)
  if l.getLast?.any (fun p => P p.1) then l.dropLast else l

omit [DecidableEq σ] in
theorem mem_of_mem_trim {P : σ → Bool} {p : σ × ℕ} {l : List (σ × ℕ)} (h : p ∈ trim P l) : p ∈ l := by
  simp only [trim] at h
  split at h
  · exact (List.dropWhile_sublist _).mem ((List.dropLast_sublist _).mem h)
  · exact (List.dropWhile_sublist _).mem h

omit [DecidableEq σ] in
/-- Below a bound. -/
theorem Le.bounded {l l' : List (σ × ℕ)} {n : ℕ} (h : Le l l') (hn : ∀ p ∈ l', p.2 ≤ n) :
    ∀ p ∈ l, p.2 ≤ n := by
  induction h with
  | nil => simp
  | @cons p q l l' hpq _ ih =>
      intro r hr
      rcases List.mem_cons.mp hr with rfl | hr
      · exact hpq.2.trans (hn q (List.mem_cons_self ..))
      · exact ih (fun s hs => hn s (List.mem_cons_of_mem _ hs)) r hr

omit [DecidableEq σ] in
theorem Le.dropWhile {l l' : List (σ × ℕ)} (P : σ → Bool) (h : Le l l') :
    Le (l.dropWhile (fun p => P p.1)) (l'.dropWhile (fun p => P p.1)) := by
  induction h with
  | nil => exact Le.nil
  | @cons p q l l' hpq hrest ih =>
      rw [List.dropWhile_cons, List.dropWhile_cons, hpq.1]
      split
      · exact ih
      · exact List.Forall₂.cons hpq hrest

omit [DecidableEq σ] in
theorem Le.getLast {l l' : List (σ × ℕ)} (h : Le l l') :
    l.getLast?.map Prod.fst = l'.getLast?.map Prod.fst := by
  induction h with
  | nil => rfl
  | @cons p q l l' hpq hrest ih =>
      cases hrest with
      | nil => simp [hpq.1]
      | cons _ _ => simpa [List.getLast?_cons_cons] using ih

omit [DecidableEq σ] in
theorem Le.trim {l l' : List (σ × ℕ)} (P : σ → Bool) (h : Le l l') : Le (trim P l) (trim P l') := by
  have hdrop := h.dropWhile P
  have hlast (l : List (σ × ℕ)) :
      l.getLast?.any (fun p => P p.1) = (l.getLast?.map Prod.fst).any P := by
    rw [Option.any_map]
  simp only [Runs.trim, hlast, hdrop.getLast]
  split
  · rw [List.dropLast_eq_take, List.dropLast_eq_take, List.Forall₂.length_eq hdrop]
    exact List.forall₂_take _ hdrop
  · exact hdrop

/-- What is in front may be dropped before merging. -/
theorem merge_dropWhile (P : σ → Bool) {l : List (σ × ℕ)} (hpos : ∀ p ∈ l, 0 < p.2) :
    merge (l.dropWhile (fun p => P p.1)) = (merge l).dropWhile (fun p => P p.1) := by
  induction l with
  | nil => rfl
  | cons p l ih =>
      obtain ⟨s, n⟩ := p
      have hn : 0 < n := hpos (s, n) (List.mem_cons_self ..)
      have hrest := ih (fun p hp => hpos p (List.mem_cons_of_mem _ hp))
      rw [merge_cons]
      by_cases hs : P s = true
      · rw [List.dropWhile_cons, if_pos hs, hrest]
        rcases merge l with - | ⟨⟨t, m⟩, l'⟩
        · simp [push_nil s hn, hs]
        · by_cases hst : s = t
          · subst hst
            simp [push_same s m l' hn, hs]
          · simp [push_ne m l' hn hst, hs]
      · obtain ⟨m, l', hpush, -⟩ := push_head s hn (merge l)
        rw [List.dropWhile_cons, if_neg hs, merge_cons, hpush, List.dropWhile_cons, if_neg hs]

/-! ### Scaling -/

/-- Scaling that rounds down, but not to nothing. -/
structure RoundsDown (f : ℕ → ℕ) : Prop where
  add : ∀ a b, f a + f b ≤ f (a + b)
  pos : ∀ a, 0 < a → 0 < f a

variable {f : ℕ → ℕ}

theorem RoundsDown.zero (hf : RoundsDown f) : f 0 = 0 := by
  have h := hf.add 0 0
  simp only [Nat.add_zero] at h
  omega

theorem push_scale (hf : RoundsDown f) (s : σ) (n : ℕ) (l : List (σ × ℕ)) :
    Le (push s (f n) (scale f l)) (scale f (push s n l)) := by
  rcases Nat.eq_zero_or_pos n with rfl | hn
  · simpa [hf.zero] using Le.refl (scale f l)
  · have hfn := hf.pos n hn
    rcases l with - | ⟨⟨t, m⟩, l⟩
    · simpa [push_nil s hn, push_nil s hfn] using Le.refl [(s, f n)]
    · by_cases hst : s = t
      · subst hst
        simpa [push_same s _ _ hn, push_same s _ _ hfn] using
          (Le.refl (scale f l)).cons s (hf.add n m)
      · simpa [push_ne _ _ hn hst, push_ne _ _ hfn hst] using
          Le.refl ((s, f n) :: (t, f m) :: scale f l)

/-- The scaled entries make up no more than the scaled runs. -/
theorem merge_scale (hf : RoundsDown f) (l : List (σ × ℕ)) :
    Le (merge (scale f l)) (scale f (merge l)) := by
  induction l with
  | nil => exact Le.nil
  | cons p l ih =>
      obtain ⟨s, n⟩ := p
      have h : Le (push s (f n) (merge (scale f l))) (push s (f n) (scale f (merge l))) :=
        push_mono s (Nat.le_refl (f n)) id ih
      exact h.trans (push_scale hf s n (merge l))

/-- **Pieces whose runs are scaled** make up runs between the scaled entries and the scaled whole
runs. -/
theorem merge_pieces (hf : RoundsDown f) (ls : List (List (σ × ℕ))) :
    Le (merge (scale f ls.flatten)) (merge (ls.map (fun l => scale f (merge l))).flatten) ∧
      Le (merge (ls.map (fun l => scale f (merge l))).flatten) (scale f (merge ls.flatten)) := by
  constructor
  · have hentries : merge (scale f ls.flatten) =
        merge (ls.map (fun l => merge (scale f l))).flatten := by
      rw [scale_flatten, ← merge_flatten, List.map_map]
      rfl
    rw [hentries]
    apply merge_mono (Le.flatten (fun l => merge_scale hf l) ls)
    intro p hp
    obtain ⟨piece, hpiece, hmem⟩ := List.mem_flatten.mp hp
    obtain ⟨l, -, rfl⟩ := List.mem_map.mp hpiece
    exact merge_pos _ p hmem
  · have hjoined : (ls.map (fun l => scale f (merge l))).flatten =
        scale f (ls.map merge).flatten := by
      rw [scale_flatten, List.map_map]
      rfl
    rw [hjoined, ← merge_flatten]
    exact merge_scale hf (ls.map merge).flatten

end Runs
