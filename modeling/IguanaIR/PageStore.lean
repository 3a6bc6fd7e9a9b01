import Mathlib.Data.List.Nodup
import Mathlib.Logic.Function.Basic

/-! # Stores written page by page

A store has a content for each page, and `write s ws` is what the writes of `ws` leave of it, the
first of the list first.  What an interruption leaves is the store behind a prefix of the writes.

* `write_take_write`: writing everything again after an interruption leaves what it would have left
  without one.
* `write_take_of_le`: a page keeps its content as long as its write has not come.
* `write_reverse`: of two writes to one page in a list that is written from its end, the first in
  the list remains. -/

namespace PageStore

variable {ι β : Type*} [DecidableEq ι]

def write (s : ι → β) (ws : List (ι × β)) : ι → β :=
  ws.foldl (fun s w => Function.update s w.1 w.2) s

@[simp] theorem write_nil (s : ι → β) : write s [] = s := rfl

theorem write_cons (s : ι → β) (w : ι × β) (ws : List (ι × β)) :
    write s (w :: ws) = write (Function.update s w.1 w.2) ws := rfl

theorem write_append (s : ι → β) (ws ws' : List (ι × β)) :
    write s (ws ++ ws') = write (write s ws) ws' := List.foldl_append

theorem write_concat (s : ι → β) (ws : List (ι × β)) (w : ι × β) :
    write s (ws ++ [w]) = Function.update (write s ws) w.1 w.2 := write_append s ws [w]

/-- A page that is not written keeps its content. -/
theorem write_of_notMem {i : ι} {ws : List (ι × β)} (h : i ∉ ws.map Prod.fst) (s : ι → β) :
    write s ws i = s i := by
  induction ws generalizing s with
  | nil => rfl
  | cons w ws ih =>
      rw [List.map_cons, List.mem_cons, not_or] at h
      rw [write_cons, ih h.2, Function.update_of_ne h.1]

/-- Writes leave the same where they write and where there was the same before. -/
theorem write_congr {i : ι} {ws : List (ι × β)} {s t : ι → β}
    (h : i ∈ ws.map Prod.fst ∨ s i = t i) : write s ws i = write t ws i := by
  induction ws generalizing s t with
  | nil =>
      obtain h | h := h
      · cases h
      · exact h
  | cons w ws ih =>
      rw [write_cons, write_cons]
      apply ih
      by_cases hw : i = w.1
      · right
        rw [hw, Function.update_self, Function.update_self]
      · rw [Function.update_of_ne hw, Function.update_of_ne hw]
        rw [List.map_cons, List.mem_cons] at h
        obtain (h | h) | h := h
        · exact absurd h hw
        · exact .inl h
        · exact .inr h

/-- **Writing everything again** after some of it was written. -/
theorem write_take_write (s : ι → β) (ws : List (ι × β)) (k : ℕ) :
    write (write s (ws.take k)) ws = write s ws := by
  funext i
  apply write_congr
  by_cases h : i ∈ ws.map Prod.fst
  · exact .inl h
  · right
    apply write_of_notMem
    rw [List.map_take]
    exact fun hi => h (List.mem_of_mem_take hi)

/-- Where no page is written twice, each write stays. -/
theorem write_of_mem {ws : List (ι × β)} (hnodup : (ws.map Prod.fst).Nodup) {w : ι × β}
    (hw : w ∈ ws) (s : ι → β) : write s ws w.1 = w.2 := by
  induction ws generalizing s with
  | nil => cases hw
  | cons v ws ih =>
      rw [List.map_cons, List.nodup_cons] at hnodup
      rw [write_cons]
      obtain rfl | hw := List.mem_cons.mp hw
      · rw [write_of_notMem hnodup.1, Function.update_self]
      · exact ih hnodup.2 hw _

/-- The write at place `j` does not show before it has come. -/
theorem write_take_of_le {ws : List (ι × β)} (hnodup : (ws.map Prod.fst).Nodup) {j k : ℕ}
    (hj : j < ws.length) (hk : k ≤ j) (s : ι → β) : write s (ws.take k) ws[j].1 = s ws[j].1 := by
  apply write_of_notMem
  intro hmem
  rw [List.map_take] at hmem
  obtain ⟨i, hi, hget⟩ := List.mem_take_iff_getElem.mp hmem
  rw [show ws[j].1 = (ws.map Prod.fst).get ⟨j, by rwa [List.length_map]⟩ from
    (List.getElem_map ..).symm] at hget
  have hij : i = j := hnodup.getElem_inj_iff.mp hget
  omega

/-- It shows from then on. -/
theorem write_take_of_lt {ws : List (ι × β)} (hnodup : (ws.map Prod.fst).Nodup) {j k : ℕ}
    (hj : j < ws.length) (hk : j < k) (s : ι → β) : write s (ws.take k) ws[j].1 = ws[j].2 := by
  apply write_of_mem
  · rw [List.map_take]
    exact hnodup.sublist (List.take_sublist ..)
  · exact List.mem_take_iff_getElem.mpr ⟨j, by omega, rfl⟩

/-- **Writing from the end**: what the list holds for a page, or what was there. -/
theorem write_reverse (s : ι → β) (ws : List (ι × β)) (i : ι) :
    write s ws.reverse i = (ws.lookup i).getD (s i) := by
  induction ws with
  | nil => rfl
  | cons w ws ih =>
      rw [List.reverse_cons, write_concat, List.lookup_cons]
      by_cases h : i = w.1
      · rw [h, Function.update_self, beq_self_eq_true]
        rfl
      · rw [Function.update_of_ne h, ih, beq_false_of_ne h]

end PageStore
