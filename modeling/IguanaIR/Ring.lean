import Mathlib.Data.Nat.ModEq
import Mathlib.Data.List.Range

/-! # Rings

A ring of `cap` cells holds `count` items from the cell `head` on, around its end.  `contents`
lists them in order; a write to the first free cell appends an item (`contents_push`), and moving
the head to the next cell takes the first one away (`contents_pop`). -/

namespace Ring

variable {α : Type}

/-- The items of a ring, the oldest one first. -/
def contents (cap : ℕ) (cell : ℕ → α) (head count : ℕ) : List α :=
  (List.range count).map (fun i => cell ((head + i) % cap))

@[simp] theorem contents_length (cap : ℕ) (cell : ℕ → α) (head count : ℕ) :
    (contents cap cell head count).length = count := by
  simp [contents]

/-- Different items are in different cells. -/
theorem index_ne {cap head i count : ℕ} (hi : i < count) (hcount : count < cap) :
    (head + i) % cap ≠ (head + count) % cap := by
  intro h
  have hmod : i % cap = count % cap := Nat.ModEq.add_left_cancel' head h
  rw [Nat.mod_eq_of_lt (hi.trans hcount), Nat.mod_eq_of_lt hcount] at hmod
  exact absurd hmod (Nat.ne_of_lt hi)

theorem contents_push {cap head count : ℕ} {cell cell' : ℕ → α} {a : α} (hcount : count < cap)
    (hnew : cell' ((head + count) % cap) = a)
    (hold : ∀ x < cap, x ≠ (head + count) % cap → cell' x = cell x) :
    contents cap cell' head (count + 1) = contents cap cell head count ++ [a] := by
  unfold contents
  rw [List.range_succ, List.map_append, List.map_singleton, hnew]
  congr 1
  refine List.map_congr_left fun i hi => ?_
  exact hold _ (Nat.mod_lt _ (by omega)) (index_ne (List.mem_range.mp hi) hcount)

/-- The first item, and what is left when the head moves on. -/
theorem contents_pop {cap head : ℕ} (cell : ℕ → α) (hhead : head < cap) (count : ℕ) :
    contents cap cell head (count + 1) = cell head :: contents cap cell ((head + 1) % cap) count := by
  unfold contents
  rw [List.range_succ_eq_map, List.map_cons, List.map_map, Nat.add_zero, Nat.mod_eq_of_lt hhead]
  congr 1
  refine List.map_congr_left fun i _ => ?_
  simp only [Function.comp, Nat.mod_add_mod]
  congr 2
  omega

end Ring
