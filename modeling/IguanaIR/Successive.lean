import Mathlib.Data.List.Basic

/-! # Conditions on what came before

`All P xs` says that every item of a list meets a condition with the items before it, and
`Any P xs` that one does.  `all_concat` and `any_concat` take the last item off. -/

namespace Successive

variable {α : Type} {P : List α → α → Prop} {xs : List α} {x : α}

/-- Every item meets the condition with the items before it. -/
def All (P : List α → α → Prop) (xs : List α) : Prop :=
  ∀ before x after, xs = before ++ x :: after → P before x

/-- Some item meets the condition with the items before it. -/
def Any (P : List α → α → Prop) (xs : List α) : Prop :=
  ∃ before x after, xs = before ++ x :: after ∧ P before x

/-- An item of a longer list is the last one or in front of it. -/
theorem concat_cases {before after : List α} {y : α} (h : xs ++ [x] = before ++ y :: after) :
    (before = xs ∧ y = x) ∨ ∃ after', xs = before ++ y :: after' := by
  obtain rfl | ⟨after', z, rfl⟩ := after.eq_nil_or_concat'
  · obtain ⟨hxs, hx⟩ := List.append_inj' h rfl
    exact .inl ⟨hxs.symm, (List.cons.inj hx).1.symm⟩
  · rw [← List.cons_append, ← List.append_assoc] at h
    exact .inr ⟨after', (List.append_inj' h rfl).1⟩

@[simp] theorem all_nil : All P [] := by
  intro before x after h
  simp at h

@[simp] theorem not_any_nil : ¬ Any P [] := by
  rintro ⟨before, x, after, h, -⟩
  simp at h

theorem all_concat : All P (xs ++ [x]) ↔ All P xs ∧ P xs x := by
  constructor
  · intro h
    refine ⟨?_, h xs x [] rfl⟩
    rintro before y after rfl
    exact h before y (after ++ [x]) (by simp)
  · rintro ⟨h, hx⟩ before y after hsplit
    obtain ⟨rfl, rfl⟩ | ⟨after', hxs⟩ := concat_cases hsplit
    · exact hx
    · exact h before y after' hxs

theorem any_concat : Any P (xs ++ [x]) ↔ Any P xs ∨ P xs x := by
  constructor
  · rintro ⟨before, y, after, hsplit, hy⟩
    obtain ⟨rfl, rfl⟩ | ⟨after', hxs⟩ := concat_cases hsplit
    · exact .inr hy
    · exact .inl ⟨before, y, after', hxs, hy⟩
  · rintro (⟨before, y, after, rfl, hy⟩ | hx)
    · exact ⟨before, y, after ++ [x], by simp, hy⟩
    · exact ⟨xs, x, [], rfl, hx⟩

/-- A condition that does not look at what came before. -/
theorem all_const {Q : α → Prop} : All (fun _ x => Q x) xs ↔ ∀ x ∈ xs, Q x := by
  constructor
  · intro h x hx
    obtain ⟨before, after, hsplit⟩ := List.append_of_mem hx
    exact h before x after hsplit
  · rintro h before x after rfl
    exact h x (by simp)

theorem All.imp {Q : List α → α → Prop} (h : All P xs)
    (himp : ∀ before, ∀ x ∈ xs, P before x → Q before x) : All Q xs := by
  rintro before x after rfl
  exact himp before x (by simp) (h before x after rfl)

end Successive
