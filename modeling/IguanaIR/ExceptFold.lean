import Mathlib.Data.List.Basic

/-! # Loops that may raise

A loop over a list whose body may end with an exception.  `foldlM_ok` is the rule for a loop whose
body raises nothing and keeps an invariant, and `forall_of_foldlM_ok` says what a loop that raised
nothing tells about the items. -/

namespace ExceptFold

variable {ε σ α β : Type}

theorem bind_ok_iff {x : Except ε α} {f : α → Except ε β} {b : β} :
    (x >>= f) = .ok b ↔ ∃ a, x = .ok a ∧ f a = .ok b := by
  cases x with
  | error e => exact ⟨nofun, fun ⟨_, h, _⟩ => nomatch h⟩
  | ok a => exact ⟨fun h => ⟨a, rfl, h⟩, fun ⟨_, h, h'⟩ => by cases h; exact h'⟩

theorem bind_ok {x : Except ε α} {a : α} (h : x = .ok a) (f : α → Except ε β) :
    (x >>= f) = f a := by
  rw [h]
  rfl

/-- **A loop that keeps an invariant** raises nothing when its body raises nothing. -/
theorem foldlM_ok (P : σ → Prop) {f : σ → α → Except ε σ} {l : List α} {s : σ} (hs : P s)
    (hbody : ∀ s, ∀ x ∈ l, P s → ∃ s', f s x = .ok s' ∧ P s') :
    ∃ s', l.foldlM f s = .ok s' ∧ P s' := by
  induction l generalizing s with
  | nil => exact ⟨s, rfl, hs⟩
  | cons x l ih =>
      obtain ⟨s₁, hstep, hs₁⟩ := hbody s x (List.mem_cons_self ..) hs
      obtain ⟨s', hrest, hs'⟩ := ih hs₁ (fun s y hy => hbody s y (List.mem_cons_of_mem _ hy))
      refine ⟨s', ?_, hs'⟩
      rw [List.foldlM_cons, bind_ok hstep, hrest]

/-- What the body needs of an item to raise nothing holds of all of them. -/
theorem forall_of_foldlM_ok (good : α → Prop) {f : σ → α → Except ε σ}
    (hbody : ∀ s x s', f s x = .ok s' → good x) {l : List α} {s s' : σ}
    (h : l.foldlM f s = .ok s') : ∀ x ∈ l, good x := by
  induction l generalizing s with
  | nil => exact fun _ hx => absurd hx List.not_mem_nil
  | cons y l ih =>
      rw [List.foldlM_cons] at h
      obtain ⟨s₁, hstep, hrest⟩ := bind_ok_iff.mp h
      intro x hx
      rcases List.mem_cons.mp hx with rfl | hx
      · exact hbody s x s₁ hstep
      · exact ih hrest x hx

end ExceptFold
