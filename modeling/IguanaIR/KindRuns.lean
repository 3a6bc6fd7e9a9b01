import Mathlib.Data.List.SplitBy
import Mathlib.Data.Nat.Notation

/-! # Loops over runs of one kind

A loop over a list keeps one value for the elements of the current kind: it extends the value by an
element of that kind, and it puts the value out and starts the next one at an element of another
kind.  `accumulate` is such a loop behind its first element.

`accumulate_runs` says that it puts out one value for each maximal run of a kind, and
`accumulate_isChain` that neighbours differ in kind. -/

namespace KindRuns

variable {α κ β : Type} [DecidableEq κ]

def sameKind (kind : α → κ) (a b : α) : Bool := kind a == kind b

/-- The values from the current one on, whose kind is `k`. -/
def accumulate (kind : α → κ) (start : α → β) (extend : β → α → β) : κ → β → List α → List β
  | _, value, [] => [value]
  | k, value, a :: rest =>
      if k = kind a then accumulate kind start extend k (extend value a) rest
      else value :: accumulate kind start extend (kind a) (start a) rest

variable {kind : α → κ} {start : α → β} {extend : β → α → β}

/-- All elements of a run have one kind. -/
theorem kind_of_chain : ∀ {g : List α} {a : α}, (a :: g).IsChain (fun x y => sameKind kind x y) →
    ∀ x ∈ a :: g, kind x = kind a
  | [], a, _, x, hx => by rw [List.mem_singleton.mp hx]
  | b :: g, a, h, x, hx => by
      obtain ⟨hab, hrest⟩ := List.isChain_cons_cons.mp h
      obtain rfl | hx := List.mem_cons.mp hx
      · rfl
      · rw [kind_of_chain hrest x hx]
        exact (beq_iff_eq.mp hab).symm

/-- **One value for each run**, when `word` is the value of a run. -/
theorem accumulate_runs {word : List α → β} (hstart : ∀ a, word [a] = start a)
    (hextend : ∀ a g b, word (a :: g ++ [b]) = extend (word (a :: g)) b) :
    ∀ (rest : List α) (a : α) (g : List α), (a :: g).IsChain (fun x y => sameKind kind x y) →
      accumulate kind start extend (kind a) (word (a :: g)) rest =
        ((a :: g ++ rest).splitBy (sameKind kind)).map word
  | [], a, g, hchain => by
      rw [List.append_nil, List.splitBy_of_isChain (List.cons_ne_nil a g) hchain]
      rfl
  | b :: rest, a, g, hchain => by
      have hlast : ∀ x ∈ (a :: g).getLast?, kind x = kind a :=
        fun x hx => kind_of_chain hchain x (List.mem_of_getLast? hx)
      rw [accumulate]
      by_cases hsame : kind a = kind b
      · -- the element joins the run
        have hchain' : (a :: (g ++ [b])).IsChain (fun x y => sameKind kind x y) := by
          rw [← List.cons_append, List.isChain_append]
          refine ⟨hchain, List.isChain_singleton _, ?_⟩
          intro x hx y hy
          obtain rfl := Option.some.inj hy
          rw [sameKind, beq_iff_eq, hlast x hx, hsame]
        rw [if_pos hsame, ← hextend, List.cons_append,
          accumulate_runs hstart hextend rest a (g ++ [b]) hchain']
        simp only [List.cons_append, List.append_assoc, List.nil_append]
      · -- the element starts the next run
        have hdiffers : ∀ x ∈ (a :: g).getLast?, sameKind kind x b = false := by
          intro x hx
          rw [sameKind, hlast x hx]
          exact beq_eq_false_iff_ne.mpr hsame
        rw [if_neg hsame, ← hstart, accumulate_runs hstart hextend rest b [] (List.isChain_singleton _),
          List.splitBy_append_cons rest hdiffers,
          List.splitBy_of_isChain (List.cons_ne_nil a g) hchain]
        rfl

/-- The whole list, from its first element on. -/
theorem accumulate_start {word : List α → β} (hstart : ∀ a, word [a] = start a)
    (hextend : ∀ a g b, word (a :: g ++ [b]) = extend (word (a :: g)) b) (a : α) (rest : List α) :
    accumulate kind start extend (kind a) (start a) rest =
      ((a :: rest).splitBy (sameKind kind)).map word := by
  rw [← hstart]
  exact accumulate_runs hstart hextend rest a [] (List.isChain_singleton _)

/-- Neighbours differ, when the values of `P` show their kind. -/
theorem accumulate_isChain {P : β → Prop} {kindOf : β → κ}
    (hstart : ∀ a, P (start a) ∧ kindOf (start a) = kind a)
    (hextend : ∀ value a, P value → P (extend value a) ∧ kindOf (extend value a) = kindOf value) :
    ∀ (rest : List α) (value : β), P value →
      (accumulate kind start extend (kindOf value) value rest).IsChain
          (fun x y => kindOf x ≠ kindOf y) ∧
        ∀ x ∈ (accumulate kind start extend (kindOf value) value rest).head?, kindOf x = kindOf value
  | [], value, _ => by
      refine ⟨List.isChain_singleton _, ?_⟩
      intro x hx
      rw [← Option.some.inj hx]
  | a :: rest, value, hvalue => by
      rw [accumulate]
      split
      · obtain ⟨hP, hkind⟩ := hextend value a hvalue
        rw [← hkind]
        exact accumulate_isChain hstart hextend rest _ hP
      · rename_i hother
        obtain ⟨hP, hkind⟩ := hstart a
        obtain ⟨hchain, hhead⟩ := accumulate_isChain hstart hextend rest _ hP
        rw [hkind] at hchain hhead
        refine ⟨List.isChain_cons.mpr ⟨?_, hchain⟩, ?_⟩
        · intro y hy
          rw [hhead y hy]
          exact hother
        · intro x hx
          rw [← Option.some.inj hx]

end KindRuns
