import Mathlib.Data.List.Infix

/-! # Streams of frames

A stream is a list that frames are written to, one behind the other, in pieces of any size.
`Whole P s` says that `s` is a sequence of complete frames, where `P` tells what a frame is.
`FramedAt P s rest` is what a reader of the stream relies on while there is only `s` of it: behind
the complete frames there is the start of at most one more, and of what is still to come, `rest`,
the first part completes it.

`Whole.framedAt` is why it is enough to look at the stream between two frames. -/

namespace Framing

variable {α : Type} (P : List α → Prop)

/-- A sequence of complete frames. -/
def Whole (s : List α) : Prop := ∃ frames : List (List α), (∀ f ∈ frames, P f) ∧ frames.flatten = s

/-- Complete frames, and the start of one that `rest` completes before anything else. -/
def FramedAt (s rest : List α) : Prop :=
  ∃ whole part, Whole P whole ∧ s = whole ++ part ∧
    (part = [] ∨ ∃ f, P f ∧ part <+: f ∧ f <+: part ++ rest)

variable {P}

theorem whole_nil : Whole P [] := ⟨[], by simp, rfl⟩

theorem Whole.append {s t : List α} (hs : Whole P s) (ht : Whole P t) : Whole P (s ++ t) := by
  obtain ⟨fs, hfs, rfl⟩ := hs
  obtain ⟨gs, hgs, rfl⟩ := ht
  refine ⟨fs ++ gs, ?_, by simp⟩
  intro f hf
  cases List.mem_append.mp hf with
  | inl h => exact hfs f h
  | inr h => exact hgs f h

theorem whole_of_frame {f : List α} (h : P f) : Whole P f := ⟨[f], by simpa using h, by simp⟩

/-- A frame at the start of a stream that is whole, unless it is empty. -/
theorem Whole.cases_head {s : List α} (h : Whole P s) :
    s = [] ∨ ∃ f t, P f ∧ Whole P t ∧ s = f ++ t := by
  obtain ⟨fs, hfs, rfl⟩ := h
  cases fs with
  | nil => exact .inl rfl
  | cons f fs =>
      refine .inr ⟨f, fs.flatten, hfs f (List.mem_cons_self ..), ⟨fs, ?_, rfl⟩, by simp⟩
      intro g hg
      exact hfs g (List.mem_cons_of_mem _ hg)

/-- **A stream that is whole in the end was framed at every moment.** -/
theorem Whole.framedAt {s rest : List α} (h : Whole P (s ++ rest)) : FramedAt P s rest := by
  obtain ⟨fs, hfs, heq⟩ := h
  induction fs generalizing s with
  | nil =>
      have hs : s = [] := by
        have hnil : s ++ rest = [] := heq.symm
        simp_all
      exact ⟨[], [], whole_nil, by simpa using hs, .inl rfl⟩
  | cons f fs ih =>
      have hf : P f := hfs f (List.mem_cons_self ..)
      have hrest : ∀ g ∈ fs, P g := fun g hg => hfs g (List.mem_cons_of_mem _ hg)
      rw [List.flatten_cons] at heq
      cases List.append_eq_append_iff.mp heq with
      | inl h =>
          -- the first frame is complete
          obtain ⟨s', rfl, hs'⟩ := h
          obtain ⟨whole, part, hwhole, rfl, hpart⟩ := ih hrest hs'
          exact ⟨f ++ whole, part, (whole_of_frame hf).append hwhole, by simp, hpart⟩
      | inr h =>
          obtain ⟨f', rfl, hf'⟩ := h
          refine ⟨[], s, whole_nil, by simp, .inr ⟨s ++ f', hf, ?_, ?_⟩⟩
          · exact List.prefix_append s f'
          · rw [hf', ← List.append_assoc]
            exact List.prefix_append _ _

/-- At the end of a stream nothing can be left to complete. -/
theorem FramedAt.whole {s : List α} (h : FramedAt P s []) : Whole P s := by
  obtain ⟨whole, part, hwhole, rfl, hpart⟩ := h
  cases hpart with
  | inl hnil =>
      rw [hnil, List.append_nil]
      exact hwhole
  | inr h =>
      obtain ⟨f, hf, hle, hge⟩ := h
      rw [List.append_nil] at hge
      have heq : part = f := hle.eq_of_length_le hge.length_le
      rw [heq]
      exact hwhole.append (whole_of_frame hf)

end Framing
