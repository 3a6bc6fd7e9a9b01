import Mathlib.Data.List.Nodup
import Mathlib.Data.List.Basic
import Mathlib.Logic.Function.Basic

/-! # The lists of the tools

`list.c`: lists whose items carry their own links.  `ι` are the addresses of items and `κ` those of
lists; `none` is a null pointer.  `Memory.Holds m list xs` says that the items `xs`, in this order,
are what `list` links together, forwards and backwards. -/

namespace IguanaIR

variable {ι κ : Type}

/-- `itemHeader`. -/
structure ItemHeader (ι κ : Type) where
  prev : Option ι
  next : Option ι
  list : Option κ
deriving DecidableEq, Repr

/-- `listHeader`. -/
structure ListHeader (ι : Type) where
  head : Option ι
  tail : Option ι
  count : BitVec 32
deriving DecidableEq, Repr

structure Memory (ι κ : Type) where
  items : ι → ItemHeader ι κ
  lists : κ → ListHeader ι

namespace Memory

variable [DecidableEq ι] [DecidableEq κ]

/-- A write to the header of an item. -/
def setItem (m : Memory ι κ) (x : ι) (f : ItemHeader ι κ → ItemHeader ι κ) : Memory ι κ :=
  { m with items := Function.update m.items x (f (m.items x)) }

/-- A write to the header of a list. -/
def setList (m : Memory ι κ) (list : κ) (f : ListHeader ι → ListHeader ι) : Memory ι κ :=
  { m with lists := Function.update m.lists list (f (m.lists list)) }

omit [DecidableEq κ] in
@[simp] theorem setItem_same (m : Memory ι κ) (x : ι) (f : ItemHeader ι κ → ItemHeader ι κ) :
    (m.setItem x f).items x = f (m.items x) := Function.update_self ..

omit [DecidableEq κ] in
theorem setItem_ne (m : Memory ι κ) {x y : ι} (f : ItemHeader ι κ → ItemHeader ι κ) (h : y ≠ x) :
    (m.setItem x f).items y = m.items y := Function.update_of_ne h ..

omit [DecidableEq κ] in
@[simp] theorem setItem_lists (m : Memory ι κ) (x : ι) (f : ItemHeader ι κ → ItemHeader ι κ) :
    (m.setItem x f).lists = m.lists := rfl

omit [DecidableEq ι] in
@[simp] theorem setList_same (m : Memory ι κ) (list : κ) (f : ListHeader ι → ListHeader ι) :
    (m.setList list f).lists list = f (m.lists list) := Function.update_self ..

omit [DecidableEq ι] in
@[simp] theorem setList_items (m : Memory ι κ) (list : κ) (f : ListHeader ι → ListHeader ι) :
    (m.setList list f).items = m.items := rfl

/-- What comes behind `prev` in the list, from its head if `prev` is null. -/
def setForward (m : Memory ι κ) (list : κ) (prev next : Option ι) : Memory ι κ :=
  match prev with
  | none => m.setList list (fun l => { l with head := next })
  | some x => m.setItem x (fun i => { i with next := next })

/-- What comes before `next` in the list, from its tail if `next` is null. -/
def setBackward (m : Memory ι κ) (list : κ) (next prev : Option ι) : Memory ι κ :=
  match next with
  | none => m.setList list (fun l => { l with tail := prev })
  | some x => m.setItem x (fun i => { i with prev := prev })

/-- What `prevPtr` points to: the item before `pos`. -/
def before (m : Memory ι κ) (list : κ) (pos : Option ι) : Option ι :=
  match pos with
  | none => (m.lists list).tail
  | some x => (m.items x).prev

/-! ### The functions of the source -/

def initializeList (m : Memory ι κ) (list : κ) : Memory ι κ :=
  m.setList list (fun _ => ⟨none, none, 0⟩)

/-- Insert before `pos`, at the end if it is null. -/
def insertItem (m : Memory ι κ) (list : κ) (pos : Option ι) (item : ι) : Memory ι κ :=
  let m := m.setItem item (fun i => { i with next := pos })
  let prev := m.before list pos
  let m := m.setItem item (fun i => { i with prev := prev })
  let m := m.setForward list prev (some item)
  let m := m.setBackward list pos (some item)
  let m := m.setList list (fun l => { l with count := l.count + 1 })
  m.setItem item (fun i => { i with list := some list })

def firstItem (m : Memory ι κ) (list : κ) : Option ι := (m.lists list).head

def removeObject (m : Memory ι κ) (list : κ) (prev next : Option ι) : Memory ι κ :=
  let m := m.setForward list prev next
  let m := m.setBackward list next prev
  m.setList list (fun l => { l with count := l.count - 1 })

/-- An item that is in no list has no list to be removed from. -/
def removeItem (m : Memory ι κ) (pos : Option ι) : Option (Memory ι κ × Option ι) :=
  match pos with
  | none => some (m, none)
  | some x => do
      let list ← (m.items x).list
      let m := m.removeObject list (m.items x).prev (m.items x).next
      some (m.setItem x (fun _ => ⟨none, none, none⟩), some x)

def removeFirstItem (m : Memory ι κ) (list : κ) : Option (Memory ι κ × Option ι) :=
  m.removeItem (m.firstItem list)

/-- From `pos` on, with the items that the action was called with; `next` is read before the call.
The loop does not end on a list that is a ring. -/
def forEachLoop {σ : Type} (list : κ) (action : ι → σ → Bool × σ) : ℕ → Memory ι κ → Option ι →
    Option ι → σ → Option (Memory ι κ × List ι × σ)
  | _, m, _, none, userData => some (m, [], userData)
  | 0, _, _, some _, _ => none
  | fuel + 1, m, prev, some pos, userData =>
      let next := (m.items pos).next
      let verdict := action pos userData
      let rest :=
        if verdict.1 then forEachLoop list action fuel m (some pos) next verdict.2
        else forEachLoop list action fuel (m.removeObject list prev next) prev next verdict.2
      rest.map (fun r => (r.1, pos :: r.2.1, r.2.2))

def forEach {σ : Type} (fuel : ℕ) (m : Memory ι κ) (list : κ) (action : ι → σ → Bool × σ)
    (userData : σ) : Option (Memory ι κ × List ι × σ) :=
  forEachLoop list action fuel m none (m.lists list).head userData

/-! ### What a list holds -/

/-- `xs` are linked in this order, with `prev` before them and `next` behind. -/
def Segment (m : Memory ι κ) (list : κ) (prev : Option ι) : List ι → Option ι → Prop
  | [], _ => True
  | x :: xs, next =>
      m.items x = ⟨prev, xs.head?.or next, some list⟩ ∧ m.Segment list (some x) xs next

/-- The list up to the item `next`. -/
structure Front (m : Memory ι κ) (list : κ) (xs : List ι) (next : Option ι) : Prop where
  head : (m.lists list).head = xs.head?.or next
  segment : m.Segment list none xs next

/-- The list from behind the item `prev`. -/
structure Back (m : Memory ι κ) (list : κ) (prev : Option ι) (xs : List ι) : Prop where
  tail : (m.lists list).tail = xs.getLast?.or prev
  segment : m.Segment list prev xs none

/-- The list holds the items `xs`. -/
structure Holds (m : Memory ι κ) (list : κ) (xs : List ι) : Prop where
  nodup : xs.Nodup
  front : m.Front list xs none
  back : m.Back list none xs
  count : (m.lists list).count = BitVec.ofNat 32 xs.length

variable {m m' : Memory ι κ} {list : κ} {xs ys : List ι} {prev next : Option ι}

omit [DecidableEq ι] [DecidableEq κ] in
theorem segment_append :
    m.Segment list prev (xs ++ ys) next ↔
      m.Segment list prev xs (ys.head?.or next) ∧
        m.Segment list (xs.getLast?.or prev) ys next := by
  induction xs generalizing prev with
  | nil => simp [Segment]
  | cons x xs ih =>
      simp only [List.cons_append, Segment, ih, List.head?_append, Option.or_assoc, and_assoc]
      simp [List.getLast?_cons]

omit [DecidableEq ι] [DecidableEq κ] in
/-- Only the headers of its items matter to a segment. -/
theorem Segment.frame (h : m.Segment list prev xs next)
    (hsame : ∀ x ∈ xs, m'.items x = m.items x) : m'.Segment list prev xs next := by
  induction xs generalizing prev with
  | nil => trivial
  | cons x xs ih =>
      constructor
      · rw [hsame x (List.mem_cons_self ..)]
        exact h.1
      · exact ih h.2 (fun y hy => hsame y (List.mem_cons_of_mem _ hy))

omit [DecidableEq ι] [DecidableEq κ] in
theorem Front.frame (h : m.Front list xs next) (hsame : ∀ x ∈ xs, m'.items x = m.items x)
    (hhead : (m'.lists list).head = (m.lists list).head) : m'.Front list xs next :=
  ⟨hhead.trans h.head, h.segment.frame hsame⟩

omit [DecidableEq ι] [DecidableEq κ] in
theorem Back.frame (h : m.Back list prev xs) (hsame : ∀ x ∈ xs, m'.items x = m.items x)
    (htail : (m'.lists list).tail = (m.lists list).tail) : m'.Back list prev xs :=
  ⟨htail.trans h.tail, h.segment.frame hsame⟩

omit [DecidableEq ι] [DecidableEq κ] in
/-- A list is cut in two at any of its links. -/
theorem holds_append :
    m.Holds list (xs ++ ys) ↔
      (xs ++ ys).Nodup ∧ m.Front list xs ys.head? ∧ m.Back list xs.getLast? ys ∧
        (m.lists list).count = BitVec.ofNat 32 (xs ++ ys).length := by
  constructor
  · rintro ⟨hnodup, ⟨hhead, hsegment⟩, ⟨htail, -⟩, hcount⟩
    obtain ⟨hxs, hys⟩ := segment_append.mp hsegment
    rw [Option.or_none] at hhead htail hxs hys
    rw [List.head?_append] at hhead
    rw [List.getLast?_append] at htail
    exact ⟨hnodup, ⟨hhead, hxs⟩, ⟨htail, hys⟩, hcount⟩
  · rintro ⟨hnodup, ⟨hhead, hxs⟩, ⟨htail, hys⟩, hcount⟩
    have hsegment : m.Segment list none (xs ++ ys) none := by
      apply segment_append.mpr
      rw [Option.or_none, Option.or_none]
      exact ⟨hxs, hys⟩
    refine ⟨hnodup, ⟨?_, hsegment⟩, ⟨?_, hsegment⟩, hcount⟩
    · rw [List.head?_append, Option.or_none, hhead]
    · rw [List.getLast?_append, Option.or_none, htail]

/-- The front ends in another item. -/
theorem Front.setForward (h : m.Front list xs prev) (hnodup : xs.Nodup) (next : Option ι) :
    (m.setForward list xs.getLast? next).Front list xs next := by
  obtain rfl | ⟨xs, x, rfl⟩ := xs.eq_nil_or_concat'
  · refine ⟨?_, trivial⟩
    simp [Memory.setForward]
  · have hx : x ∉ xs := by
      intro hmem
      exact (List.nodup_append.mp hnodup).2.2 x hmem x (List.mem_singleton_self x) rfl
    obtain ⟨hxs, hlast⟩ := segment_append.mp h.segment
    rw [List.getLast?_concat, Memory.setForward]
    constructor
    · have hhead := h.head
      simp only [setItem_lists, List.head?_append, List.head?_cons, Option.or_assoc,
        Option.some_or] at hhead ⊢
      exact hhead
    · apply segment_append.mpr
      constructor
      · apply hxs.frame
        intro y hy
        exact setItem_ne m _ (fun heq => hx (heq ▸ hy))
      · refine ⟨?_, trivial⟩
        rw [setItem_same, hlast.1]
        rfl

/-- The back starts behind another item. -/
theorem Back.setBackward (h : m.Back list next xs) (hnodup : xs.Nodup) (prev : Option ι) :
    (m.setBackward list xs.head? prev).Back list prev xs := by
  cases xs with
  | nil =>
      refine ⟨?_, trivial⟩
      simp [Memory.setBackward]
  | cons x xs =>
      have hx : x ∉ xs := (List.nodup_cons.mp hnodup).1
      rw [List.head?_cons, Memory.setBackward]
      constructor
      · have htail := h.tail
        rw [List.getLast?_cons] at htail ⊢
        exact htail
      · constructor
        · rw [setItem_same, h.segment.1]
        · apply h.segment.2.frame
          intro y hy
          exact setItem_ne m _ (fun heq => hx (heq ▸ hy))

/-- A forward link changes the item that it leaves, or the head. -/
theorem setForward_items {x : ι} (h : x ∉ prev) :
    (m.setForward list prev next).items x = m.items x := by
  cases prev with
  | none => rfl
  | some y =>
      rw [Memory.setForward]
      exact setItem_ne m _ (fun heq => h (Option.mem_some_iff.mpr heq.symm))

theorem setForward_tail :
    ((m.setForward list prev next).lists list).tail = (m.lists list).tail := by
  cases prev with
  | none => simp [Memory.setForward]
  | some y => rfl

theorem setForward_count :
    ((m.setForward list prev next).lists list).count = (m.lists list).count := by
  cases prev with
  | none => simp [Memory.setForward]
  | some y => rfl

theorem setBackward_items {x : ι} (h : x ∉ next) :
    (m.setBackward list next prev).items x = m.items x := by
  cases next with
  | none => rfl
  | some y =>
      rw [Memory.setBackward]
      exact setItem_ne m _ (fun heq => h (Option.mem_some_iff.mpr heq.symm))

theorem setBackward_head :
    ((m.setBackward list next prev).lists list).head = (m.lists list).head := by
  cases next with
  | none => simp [Memory.setBackward]
  | some y => rfl

theorem setBackward_count :
    ((m.setBackward list next prev).lists list).count = (m.lists list).count := by
  cases next with
  | none => simp [Memory.setBackward]
  | some y => rfl

/-! ### The operations keep the list -/

/-- The two parts of a list get another item behind the first and before the second. -/
theorem relink {next' prev' : Option ι} (hfront : m.Front list xs next)
    (hback : m.Back list prev ys) (hnodup : (xs ++ ys).Nodup) :
    ((m.setForward list xs.getLast? next').setBackward list ys.head? prev').Front list xs next' ∧
      ((m.setForward list xs.getLast? next').setBackward list ys.head? prev').Back list prev' ys := by
  obtain ⟨hxs, hys, hapart⟩ := List.nodup_append.mp hnodup
  constructor
  · apply (hfront.setForward hxs next').frame
    · intro x hx
      apply setBackward_items
      intro hmem
      exact hapart x hx x (List.mem_of_head? hmem) rfl
    · exact setBackward_head
  · have hframed : (m.setForward list xs.getLast? next').Back list prev ys := by
      apply hback.frame
      · intro y hy
        apply setForward_items
        intro hmem
        exact hapart y (List.mem_of_getLast? hmem) y hy rfl
      · exact setForward_tail
    exact hframed.setBackward hys prev'

/-- An item that is in neither part keeps its header. -/
theorem relink_items {next' prev' : Option ι} {x : ι} (h : x ∉ xs ++ ys) :
    ((m.setForward list xs.getLast? next').setBackward list ys.head? prev').items x =
      m.items x := by
  rw [setBackward_items, setForward_items]
  · intro hmem
    exact h (List.mem_append_left _ (List.mem_of_getLast? hmem))
  · intro hmem
    exact h (List.mem_append_right _ (List.mem_of_head? hmem))

omit [DecidableEq ι] [DecidableEq κ] in
theorem Back.before (h : m.Back list prev ys) : m.before list ys.head? = prev := by
  cases ys with
  | nil => exact h.tail
  | cons y ys =>
      rw [List.head?_cons, Memory.before, h.segment.1]

/-- **Insertion** puts the item before the position. -/
theorem insertItem_holds {item : ι} (h : m.Holds list (xs ++ ys)) (hitem : item ∉ xs ++ ys) :
    (m.insertItem list ys.head? item).Holds list (xs ++ item :: ys) := by
  obtain ⟨hnodup, hfront, hback, hcount⟩ := holds_append.mp h
  have hne : ∀ x ∈ xs ++ ys, x ≠ item := fun x hx heq => hitem (heq ▸ hx)
  have hnodup' : (xs ++ item :: ys).Nodup :=
    List.nodup_middle.mpr (List.nodup_cons.mpr ⟨hitem, hnodup⟩)
  unfold insertItem
  extract_lets m₁ prev m₂ m₃ m₄ m₅
  have hsame₁ : ∀ x ∈ xs ++ ys, m₁.items x = m.items x := fun x hx => setItem_ne m _ (hne x hx)
  have hprev : prev = xs.getLast? := by
    have hback₁ : m₁.Back list xs.getLast? ys :=
      hback.frame (fun y hy => hsame₁ y (List.mem_append_right _ hy)) rfl
    exact hback₁.before
  have hsame₂ : ∀ x ∈ xs ++ ys, m₂.items x = m.items x :=
    fun x hx => (setItem_ne m₁ _ (hne x hx)).trans (hsame₁ x hx)
  have hlinked : m₄.Front list xs (some item) ∧ m₄.Back list (some item) ys := by
    have hm₄ : m₄ = (m₂.setForward list xs.getLast? (some item)).setBackward list ys.head?
        (some item) := by
      rw [← hprev]
    rw [hm₄]
    exact relink (hfront.frame (fun x hx => hsame₂ x (List.mem_append_left _ hx)) rfl)
      (hback.frame (fun y hy => hsame₂ y (List.mem_append_right _ hy)) rfl) hnodup
  have hheader : m₄.items item = ⟨xs.getLast?, ys.head?, (m.items item).list⟩ := by
    have hkept : m₄.items item = m₂.items item := by
      have hm₄ : m₄ = (m₂.setForward list xs.getLast? (some item)).setBackward list ys.head?
          (some item) := by
        rw [← hprev]
      rw [hm₄]
      exact relink_items hitem
    rw [hkept, setItem_same, setItem_same, hprev]
  have hsame₄ : ∀ x ∈ xs ++ ys, (m₅.setItem item fun i => { i with list := some list }).items x =
      m₄.items x := fun x hx => setItem_ne m₅ _ (hne x hx)
  apply holds_append.mpr
  refine ⟨hnodup', ?_, ?_, ?_⟩
  · apply hlinked.1.frame
    · exact fun x hx => hsame₄ x (List.mem_append_left _ hx)
    · simp [m₅]
  · have hys : (m₅.setItem item fun i => { i with list := some list }).Back list (some item) ys := by
      apply hlinked.2.frame
      · exact fun y hy => hsame₄ y (List.mem_append_right _ hy)
      · simp [m₅]
    refine ⟨?_, ?_, hys.segment⟩
    · rw [hys.tail, List.getLast?_cons]
      cases ys.getLast? <;> rfl
    · rw [setItem_same, setList_items, hheader, Option.or_none]
  · have hlength : (xs ++ item :: ys).length = (xs ++ ys).length + 1 := by
      rw [List.length_append, List.length_append, List.length_cons, Nat.add_assoc]
    have hcount₃ : (m₄.lists list).count = (m.lists list).count :=
      setBackward_count.trans setForward_count
    rw [setItem_lists, setList_same, hcount₃, hcount, hlength, BitVec.ofNat_add]
    rfl

/-- An item goes to the end of the list. -/
theorem insertItem_last {item : ι} (h : m.Holds list xs) (hitem : item ∉ xs) :
    (m.insertItem list none item).Holds list (xs ++ [item]) := by
  have hlist : m.Holds list (xs ++ []) := by rwa [List.append_nil]
  exact insertItem_holds hlist (by rwa [List.append_nil])

/-- **Removal** takes one item out of the list. -/
theorem removeObject_holds {x : ι} (h : m.Holds list (xs ++ x :: ys)) :
    (m.removeObject list xs.getLast? ys.head?).Holds list (xs ++ ys) ∧
      (m.removeObject list xs.getLast? ys.head?).items x = m.items x := by
  obtain ⟨hnodup, hfront, hback, hcount⟩ := holds_append.mp h
  obtain ⟨hx, hrest⟩ := List.nodup_middle.mp hnodup |> List.nodup_cons.mp
  rw [List.append_cons, List.nodup_append] at hnodup
  have hys : m.Back list (some x) ys := by
    refine ⟨?_, hback.segment.2⟩
    have htail := hback.tail
    rw [List.getLast?_cons] at htail
    rw [htail]
    cases ys.getLast? <;> rfl
  obtain ⟨hxs, hys⟩ := relink hfront hys hrest
  constructor
  · apply holds_append.mpr
    refine ⟨hrest, hxs.frame (fun _ _ => rfl) ?_, hys.frame (fun _ _ => rfl) ?_, ?_⟩
    · simp [removeObject]
    · simp [removeObject]
    · have hlength : (xs ++ x :: ys).length = (xs ++ ys).length + 1 := by
        rw [List.length_append, List.length_append, List.length_cons, Nat.add_assoc]
      simp only [removeObject, setList_same, setBackward_count, setForward_count, hcount, hlength]
      rw [BitVec.ofNat_add]
      exact BitVec.add_sub_cancel _ _
  · exact relink_items hx

theorem removeItem_holds {x : ι} (h : m.Holds list (xs ++ x :: ys)) :
    ∃ m', m.removeItem (some x) = some (m', some x) ∧ m'.Holds list (xs ++ ys) ∧
      m'.items x = ⟨none, none, none⟩ := by
  obtain ⟨-, -, hback, -⟩ := holds_append.mp h
  have hx : x ∉ xs ++ ys := (List.nodup_cons.mp (List.nodup_middle.mp h.nodup)).1
  obtain ⟨hnodup, hfront, hback', hcount⟩ := (removeObject_holds h).1
  have hsame : ∀ m' : Memory ι κ, ∀ y ∈ xs ++ ys,
      (m'.setItem x fun _ => ⟨none, none, none⟩).items y = m'.items y :=
    fun m' y hy => setItem_ne m' _ (fun heq => hx (heq ▸ hy))
  refine ⟨_, ?_, ⟨hnodup, hfront.frame (hsame _) rfl, hback'.frame (hsame _) rfl, hcount⟩,
    setItem_same ..⟩
  simp only [removeItem, hback.segment.1, Option.bind_eq_bind, Option.bind_some, Option.or_none]

theorem removeFirstItem_cons {x : ι} (h : m.Holds list (x :: xs)) :
    ∃ m', m.removeFirstItem list = some (m', some x) ∧ m'.Holds list xs ∧
      m'.items x = ⟨none, none, none⟩ := by
  rw [removeFirstItem, firstItem, h.front.head]
  have hlist : m.Holds list ([] ++ x :: xs) := h
  exact removeItem_holds hlist

/-- What a traversal leaves: the items that the action accepts, and its data. -/
def accepts {σ : Type} (action : ι → σ → Bool × σ) : List ι → σ → List ι × σ
  | [], userData => ([], userData)
  | x :: xs, userData =>
      let verdict := action x userData
      let rest := accepts action xs verdict.2
      (if verdict.1 then x :: rest.1 else rest.1, rest.2)

/-- The rest of a traversal, behind the items that were accepted. -/
theorem forEachLoop_holds {σ : Type} (action : ι → σ → Bool × σ) (rest kept : List ι) (fuel : ℕ)
    (m : Memory ι κ) (userData : σ) (h : m.Holds list (kept ++ rest)) (hfuel : rest.length ≤ fuel) :
    ∃ m', forEachLoop list action fuel m kept.getLast? rest.head? userData =
        some (m', rest, (accepts action rest userData).2) ∧
      m'.Holds list (kept ++ (accepts action rest userData).1) := by
  induction rest generalizing kept fuel m userData with
  | nil => exact ⟨m, by cases fuel <;> rfl, h⟩
  | cons x rest ih =>
      obtain ⟨fuel, rfl⟩ : ∃ n, fuel = n + 1 :=
        Nat.exists_eq_succ_of_ne_zero (Nat.ne_of_gt (Nat.lt_of_lt_of_le (Nat.succ_pos _) hfuel))
      have hnext : (m.items x).next = rest.head? := by
        obtain ⟨-, -, hback, -⟩ := holds_append.mp h
        rw [hback.segment.1, Option.or_none]
      have hfuel' : rest.length ≤ fuel := Nat.le_of_succ_le_succ hfuel
      rw [List.head?_cons, forEachLoop, accepts]
      dsimp only
      rw [hnext]
      cases hverdict : (action x userData).1 with
      | true =>
          rw [List.append_cons] at h
          obtain ⟨m', hrest, hholds⟩ := ih (kept ++ [x]) fuel m (action x userData).2 h hfuel'
          rw [List.getLast?_concat] at hrest
          refine ⟨m', ?_, ?_⟩
          · rw [if_pos rfl, hrest]
            rfl
          · rwa [if_pos rfl, List.append_cons]
      | false =>
          obtain ⟨m', hrest, hholds⟩ := ih kept fuel _ (action x userData).2
            (removeObject_holds h).1 hfuel'
          refine ⟨m', ?_, ?_⟩
          · rw [if_neg Bool.false_ne_true, hrest]
            rfl
          · rwa [if_neg Bool.false_ne_true]

/-- **A traversal** visits every item, and leaves those that are accepted. -/
theorem forEach_holds {σ : Type} (action : ι → σ → Bool × σ) {fuel : ℕ} (userData : σ)
    (h : m.Holds list xs) (hfuel : xs.length ≤ fuel) : ∃ m',
      m.forEach fuel list action userData = some (m', xs, (accepts action xs userData).2) ∧
      m'.Holds list (accepts action xs userData).1 := by
  rw [forEach, h.front.head, Option.or_none]
  exact forEachLoop_holds action xs [] fuel m userData h hfuel

omit [DecidableEq ι] in
theorem initializeList_holds (m : Memory ι κ) (list : κ) : (m.initializeList list).Holds list [] := by
  refine ⟨List.nodup_nil, ⟨?_, trivial⟩, ⟨?_, trivial⟩, ?_⟩ <;> simp [initializeList]

end Memory

end IguanaIR
