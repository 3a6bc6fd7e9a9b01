import Mathlib.Algebra.Group.Nat.Defs
import Mathlib.Data.List.Induction
import IguanaIR.LinkedList
import IguanaIR.Transition

/-! # Lists as sequences

Runs of the operations of `list.c` on one list, next to the same operations on a sequence of items.
An operation on the sequence is undefined where the list would be used wrongly: an item goes on
the list that is on it already, or a position or an item to be removed is not on it.

The action of a traversal decides by the item and by its own data, and leaves the headers of the
items alone.  `count` is an `unsigned int`. -/

namespace IguanaIR

variable {ι κ σ : Type}

inductive ListOp (ι σ : Type) where
  | insert (pos : Option ι) (item : ι)
  | remove (pos : Option ι)
  | removeFirst
  | forEach (action : ι → σ → Bool × σ) (userData : σ)

/-- What an operation returns; an item that is taken off comes with the header that it has then. -/
inductive ListOutput (ι κ σ : Type) where
  | inserted
  | removed (item : Option (ι × ItemHeader ι κ))
  | visited (items : List ι) (userData : σ)
deriving DecidableEq, Repr

/-- In no list. -/
def detached : ItemHeader ι κ := ⟨none, none, none⟩

/-! ### The sequence -/

theorem accepts_length (action : ι → σ → Bool × σ) (xs : List ι) (userData : σ) :
    (Memory.accepts action xs userData).1.length ≤ xs.length := by
  induction xs generalizing userData with
  | nil => exact Nat.le_refl _
  | cons x xs ih =>
      have hrest := ih (action x userData).2
      rw [Memory.accepts]
      dsimp only
      split <;> simp <;> omega

section Sequence

variable [DecidableEq ι]

def insertBefore (p item : ι) : List ι → List ι
  | [] => [item]
  | x :: xs => if x = p then item :: x :: xs else x :: insertBefore p item xs

/-- One operation on the sequence. -/
def sequenceStep (κ : Type) (xs : List ι) : ListOp ι σ → Option (List ι × ListOutput ι κ σ)
  | .insert none item => if item ∈ xs then none else some (xs ++ [item], .inserted)
  | .insert (some p) item =>
      if item ∈ xs ∨ p ∉ xs then none else some (insertBefore p item xs, .inserted)
  | .remove none => some (xs, .removed none)
  | .remove (some x) => if x ∈ xs then some (xs.erase x, .removed (some (x, detached))) else none
  | .removeFirst => some (xs.tail, .removed (xs.head?.map (·, detached)))
  | .forEach action userData =>
      some ((Memory.accepts action xs userData).1, .visited xs (Memory.accepts action xs userData).2)

theorem insertBefore_split (p item : ι) {xs : List ι} (h : p ∈ xs) : ∃ before after,
    xs = before ++ p :: after ∧ insertBefore p item xs = before ++ item :: p :: after := by
  induction xs with
  | nil => exact absurd h List.not_mem_nil
  | cons x xs ih =>
      by_cases hx : x = p
      · subst hx
        exact ⟨[], xs, rfl, if_pos rfl⟩
      · have hp : p ∈ xs := (List.mem_cons.mp h).resolve_left (Ne.symm hx)
        obtain ⟨before, after, rfl, hinsert⟩ := ih hp
        refine ⟨x :: before, after, rfl, ?_⟩
        rw [insertBefore, if_neg hx, hinsert]
        rfl

theorem insertBefore_length (p item : ι) (xs : List ι) :
    (insertBefore p item xs).length = xs.length + 1 := by
  induction xs with
  | nil => rfl
  | cons x xs ih =>
    rw [insertBefore]
    split <;> simp [ih]

/-- One operation puts one item on the list at most. -/
theorem sequenceStep_length {xs xs' : List ι} {op : ListOp ι σ} {o : ListOutput ι κ σ}
    (h : sequenceStep κ xs op = some (xs', o)) : xs'.length ≤ xs.length + 1 := by
  cases op with
  | insert pos item =>
    cases pos <;> rw [sequenceStep] at h <;> split_ifs at h <;> cases h
    · simp
    · exact Nat.le_of_eq (insertBefore_length ..)
  | remove pos =>
    cases pos with
    | none =>
      cases h
      omega
    | some x =>
      rw [sequenceStep] at h
      split_ifs at h
      cases h
      have herase := List.length_erase_le (a := x) (l := xs)
      omega
  | removeFirst =>
    cases h
    simp
    omega
  | forEach action userData =>
    cases h
    have hle := accepts_length action xs userData
    omega

/-- New items, one after the other. -/
theorem run_appends (ys xs : List ι) (h : (xs ++ ys).Nodup) :
    Transition.run (sequenceStep (σ := σ) κ) xs (ys.map (.insert none)) =
      some (xs ++ ys, List.replicate ys.length .inserted) := by
  induction ys generalizing xs with
  | nil =>
      rw [List.append_nil]
      rfl
  | cons y ys ih =>
      have hy : y ∉ xs := (List.nodup_cons.mp (List.nodup_middle.mp h)).1 ∘ List.mem_append_left ys
      rw [List.append_cons] at h ⊢
      rw [List.map_cons, Transition.run, sequenceStep, if_neg hy, Option.bind_eq_bind,
        Option.bind_some]
      dsimp only
      rw [ih (xs ++ [y]) h]
      rfl

end Sequence

/-! ### The list -/

/-- Following `link` from `start` visits the items in order, and ends. -/
def Visits (link : ι → Option ι) : Option ι → List ι → Prop
  | start, [] => start = none
  | start, x :: xs => start = some x ∧ Visits link (link x) xs

namespace Memory

/-- The list refines the sequence. -/
structure Refines (m : Memory ι κ) (list : κ) (xs : List ι) : Prop where
  nodup : xs.Nodup
  forward : Visits (fun x => (m.items x).next) (m.lists list).head xs
  backward : Visits (fun x => (m.items x).prev) (m.lists list).tail xs.reverse
  count : (m.lists list).count.toNat = xs.length % 2 ^ 32
  head : (m.lists list).head = none ↔ xs = []
  tail : (m.lists list).tail = none ↔ xs = []
  owner : ∀ x ∈ xs, (m.items x).list = some list

variable {m m' : Memory ι κ} {list : κ} {xs : List ι} {prev next : Option ι}

theorem Segment.forward (h : m.Segment list prev xs none) :
    Visits (fun x => (m.items x).next) xs.head? xs := by
  induction xs generalizing prev with
  | nil => rfl
  | cons x xs ih =>
    refine ⟨rfl, ?_⟩
    simp only [h.1, Option.or_none]
    exact ih h.2

theorem Segment.backward (h : m.Segment list none xs next) :
    Visits (fun x => (m.items x).prev) xs.getLast? xs.reverse := by
  induction xs using List.reverseRecOn generalizing next with
  | nil => rfl
  | append_singleton xs x ih =>
    obtain ⟨hxs, hx⟩ := segment_append.mp h
    rw [List.getLast?_concat, List.reverse_concat]
    refine ⟨rfl, ?_⟩
    simp only [hx.1, Option.or_none]
    exact ih hxs

theorem Segment.owner (h : m.Segment list prev xs next) :
    ∀ x ∈ xs, (m.items x).list = some list := by
  induction xs generalizing prev with
  | nil => simp
  | cons x xs ih =>
    intro y hy
    rcases List.mem_cons.mp hy with rfl | hy
    · rw [h.1]
    · exact ih h.2 y hy

/-- **What a list holds** it refines. -/
theorem Holds.refines (h : m.Holds list xs) : m.Refines list xs := by
  have hhead := h.front.head
  have htail := h.back.tail
  rw [Option.or_none] at hhead htail
  refine ⟨h.nodup, ?_, ?_, ?_, ?_, ?_, h.front.segment.owner⟩
  · rw [hhead]
    exact h.front.segment.forward
  · rw [htail]
    exact h.front.segment.backward
  · rw [h.count, BitVec.toNat_ofNat]
  · rw [hhead, List.head?_eq_none_iff]
  · rw [htail, List.getLast?_eq_none_iff]

section Operations

variable [DecidableEq ι] [DecidableEq κ]

/-- The header that a removed item has. -/
def removal (r : Memory ι κ × Option ι) : Memory ι κ × ListOutput ι κ σ :=
  (r.1, .removed (r.2.map (fun x => (x, r.1.items x))))

/-- One operation on the list; `fuel` bounds the items of a traversal. -/
def listStep (list : κ) (fuel : ℕ) (m : Memory ι κ) :
    ListOp ι σ → Option (Memory ι κ × ListOutput ι κ σ)
  | .insert pos item => some (m.insertItem list pos item, .inserted)
  | .remove pos => (m.removeItem pos).map removal
  | .removeFirst => (m.removeFirstItem list).map removal
  | .forEach action userData =>
      (m.forEach fuel list action userData).map (fun r => (r.1, .visited r.2.1 r.2.2))

/-- **One operation** on the list does what it does on the sequence. -/
theorem listStep_holds {fuel : ℕ} {op : ListOp ι σ} {xs' : List ι} {o : ListOutput ι κ σ}
    (hm : m.Holds list xs) (hfuel : xs.length ≤ fuel)
    (h : sequenceStep κ xs op = some (xs', o)) :
    ∃ m', m.listStep list fuel op = some (m', o) ∧ m'.Holds list xs' := by
  cases op with
  | insert pos item =>
    cases pos with
    | none =>
      rw [sequenceStep] at h
      split_ifs at h with hitem
      cases h
      exact ⟨_, rfl, insertItem_last hm hitem⟩
    | some p =>
      rw [sequenceStep] at h
      split_ifs at h with hvalid
      cases h
      obtain ⟨hitem, hp⟩ := not_or.mp hvalid
      obtain ⟨before, after, hsplit, hinsert⟩ := insertBefore_split p item (not_not.mp hp)
      rw [hsplit] at hm hitem
      rw [hinsert]
      exact ⟨_, rfl, insertItem_holds hm hitem⟩
  | remove pos =>
    cases pos with
    | none =>
      cases h
      exact ⟨m, rfl, hm⟩
    | some x =>
      rw [sequenceStep] at h
      split_ifs at h with hx
      cases h
      obtain ⟨before, after, -, hsplit, herase⟩ := List.exists_erase_eq hx
      rw [hsplit] at hm
      obtain ⟨m', hremove, hholds, hheader⟩ := removeItem_holds hm
      refine ⟨m', ?_, by rwa [herase]⟩
      rw [listStep, hremove, Option.map_some, removal, Option.map_some, hheader]
      rfl
  | removeFirst =>
    cases h
    cases xs with
    | nil =>
      refine ⟨m, ?_, hm⟩
      rw [listStep, removeFirstItem, firstItem, hm.front.head]
      rfl
    | cons x xs =>
      obtain ⟨m', hremove, hholds, hheader⟩ := removeFirstItem_cons hm
      refine ⟨m', ?_, hholds⟩
      rw [listStep, hremove, Option.map_some, removal, Option.map_some, hheader]
      rfl
  | forEach action userData =>
    cases h
    obtain ⟨m', hwalk, hholds⟩ := forEach_holds action userData hm hfuel
    refine ⟨m', ?_, hholds⟩
    rw [listStep, hwalk]
    rfl

/-- A run on the list does what it does on the sequence. -/
theorem run_holds (fuel : ℕ) {ops : List (ListOp ι σ)} {m : Memory ι κ} {xs xs' : List ι}
    {outs : List (ListOutput ι κ σ)} (hm : m.Holds list xs) (hfuel : xs.length + ops.length ≤ fuel)
    (h : Transition.run (sequenceStep κ) xs ops = some (xs', outs)) :
    ∃ m', Transition.run (listStep list fuel) m ops = some (m', outs) ∧ m'.Holds list xs' := by
  induction ops generalizing m xs outs with
  | nil =>
      cases h
      exact ⟨m, rfl, hm⟩
  | cons op ops ih =>
      obtain ⟨xs₁, o, os, hop, hrest, rfl⟩ := Transition.run_cons h
      have hlength := sequenceStep_length hop
      rw [List.length_cons] at hfuel
      have hfits : xs.length ≤ fuel := by omega
      obtain ⟨m₁, hstep, hm₁⟩ := listStep_holds hm hfits hop
      obtain ⟨m', hrun, hm'⟩ := ih hm₁ (by omega) hrest
      refine ⟨m', ?_, hm'⟩
      rw [Transition.run, hstep, Option.bind_eq_bind, Option.bind_some]
      dsimp only
      rw [hrun]
      rfl

/-- **The lists of the tools are sequences.**  From an initialised list, every run of the operations
that is defined on sequences returns what it returns there, with any bound on the traversals that
is not below the number of operations, and leaves a list that refines the sequence. -/
theorem list_refines (m : Memory ι κ) (list : κ) (ops : List (ListOp ι σ)) (xs : List ι)
    (outs : List (ListOutput ι κ σ)) (fuel : ℕ) (hfuel : ops.length ≤ fuel)
    (h : Transition.run (sequenceStep κ) [] ops = some (xs, outs)) :
    ∃ m', Transition.run (listStep list fuel) (m.initializeList list) ops = some (m', outs) ∧
      m'.Refines list xs := by
  obtain ⟨m', hrun, hm'⟩ := run_holds fuel (initializeList_holds m list) (by simpa using hfuel) h
  exact ⟨m', hrun, hm'.refines⟩

end Operations

/-- Nothing is linked. -/
def unlinked : Memory ℕ Unit := ⟨fun _ => ⟨none, none, none⟩, fun _ => ⟨none, none, 0⟩⟩

/-- An insertion in front, a traversal that rejects odd numbers, and two removals. -/
def someOps : List (ListOp ℕ ℕ) :=
  [.insert none 2, .insert (some 2) 1, .insert none 4, .insert none 6,
    .forEach (fun x calls => (x % 2 = 0, calls + 1)) 0, .remove (some 4), .insert none 1, .removeFirst]

theorem list_refines_some : ∃ m', Transition.run (listStep () 8) (unlinked.initializeList ()) someOps =
      some (m', [.inserted, .inserted, .inserted, .inserted, .visited [1, 2, 4, 6] 4,
        .removed (some (4, detached)), .inserted, .removed (some (2, detached))]) ∧
    m'.Refines () [6, 1] :=
  list_refines unlinked () someOps [6, 1] _ 8 (by decide) (by decide)

/-- New items are appended to an empty list. -/
theorem run_range (n : ℕ) : ∃ m' outs,
    Transition.run (listStep () n) (unlinked.initializeList ())
      ((List.range n).map (ListOp.insert (σ := Unit) none)) = some (m', outs) ∧
    Transition.run (sequenceStep Unit) [] ((List.range n).map (ListOp.insert (σ := Unit) none)) =
      some (List.range n, outs) ∧
    (m'.lists ()).count.toNat = n % 2 ^ 32 := by
  have hsequence := run_appends (κ := Unit) (σ := Unit) (List.range n) [] List.nodup_range
  rw [List.nil_append] at hsequence
  obtain ⟨m', hrun, hm'⟩ := run_holds n (initializeList_holds unlinked ()) (by simp) hsequence
  refine ⟨m', _, hrun, hsequence, ?_⟩
  rw [hm'.refines.count, List.length_range]

/-- The count of `2 ^ 32` items is 0. -/
theorem count_wraps : ∃ m' outs,
    Transition.run (listStep () (2 ^ 32)) (unlinked.initializeList ())
      ((List.range (2 ^ 32)).map (ListOp.insert (σ := Unit) none)) = some (m', outs) ∧
    Transition.run (sequenceStep Unit) [] ((List.range (2 ^ 32)).map (ListOp.insert (σ := Unit) none)) =
      some (List.range (2 ^ 32), outs) ∧
    (m'.lists ()).count.toNat ≠ (List.range (2 ^ 32)).length := by
  obtain ⟨m', outs, hrun, hsequence, hcount⟩ := run_range (2 ^ 32)
  refine ⟨m', outs, hrun, hsequence, ?_⟩
  rw [hcount, List.length_range]
  decide

end Memory

end IguanaIR
