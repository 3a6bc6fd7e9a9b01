import Mathlib.Algebra.BigOperators.Group.List.Basic
import Mathlib.Tactic.Ring

/-! # Cutting a list into blocks

A list is cut into blocks of `m` items: `blocks m l` are the full ones, `rest m l` is what is
left over (fewer than `m` items).  `blocks_flatten_append_rest` puts the list together again;
`blocks_cons` and `rest_cons` take the first block off, and `block_induction` is the induction
that goes with them.

`dropCover n ps` drops from a queue of lists those that it takes to have `n` items, or fails
when the queue does not hold that many. -/

namespace Chunks

variable {α : Type}

/-! ### Blocks of equal size -/

/-- The full blocks of `m` items of `l`, by index. -/
def blocks (m : ℕ) (l : List α) : List (List α) :=
  (List.range (l.length / m)).map (fun x => (l.drop (x * m)).take m)

/-- What the full blocks leave over. -/
def rest (m : ℕ) (l : List α) : List α := l.drop (l.length / m * m)

theorem rest_length (m : ℕ) (l : List α) : (rest m l).length = l.length % m := by
  have := Nat.div_add_mod' l.length m
  simp only [rest, List.length_drop]
  omega

theorem blocks_of_lt {m : ℕ} {l : List α} (h : l.length < m) : blocks m l = [] := by
  simp [blocks, Nat.div_eq_of_lt h]

theorem rest_of_lt {m : ℕ} {l : List α} (h : l.length < m) : rest m l = l := by
  simp [rest, Nat.div_eq_of_lt h]

theorem length_div {m : ℕ} {l : List α} (hm : 0 < m) (h : m ≤ l.length) :
    l.length / m = (l.drop m).length / m + 1 := by
  rw [List.length_drop, ← Nat.div_eq_sub_div hm h]

theorem blocks_cons {m : ℕ} {l : List α} (hm : 0 < m) (h : m ≤ l.length) :
    blocks m l = l.take m :: blocks m (l.drop m) := by
  unfold blocks
  rw [length_div hm h, List.range_succ_eq_map]
  simp only [List.map_cons, List.map_map, Nat.zero_mul, List.drop_zero, List.cons.injEq, true_and]
  apply List.map_congr_left
  intro x _
  simp only [Function.comp_apply, List.drop_drop, Nat.succ_eq_add_one]
  congr 2
  ring

theorem rest_cons {m : ℕ} {l : List α} (hm : 0 < m) (h : m ≤ l.length) :
    rest m l = rest m (l.drop m) := by
  unfold rest
  rw [length_div hm h, List.drop_drop]
  congr 1
  ring

/-- A list is shorter than a block or has a first block to take off. -/
theorem block_induction {m : ℕ} (hm : 0 < m) {P : List α → Prop}
    (short : ∀ l, l.length < m → P l) (cons : ∀ l, m ≤ l.length → P (l.drop m) → P l) :
    ∀ l, P l := by
  intro l
  induction hn : l.length using Nat.strong_induction_on generalizing l with
  | _ n ih =>
      rcases Nat.lt_or_ge l.length m with hlt | hge
      · exact short l hlt
      · exact cons l hge (ih (l.drop m).length (by simp only [List.length_drop]; omega) _ rfl)

theorem blocks_flatten_append_rest {m : ℕ} (hm : 0 < m) (l : List α) :
    (blocks m l).flatten ++ rest m l = l := by
  induction l using block_induction hm with
  | short l hl => rw [blocks_of_lt hl, rest_of_lt hl]; rfl
  | cons l hl ih =>
      rw [blocks_cons hm hl, rest_cons hm hl, List.flatten_cons, List.append_assoc, ih,
        List.take_append_drop]

theorem length_of_mem_blocks {m : ℕ} (hm : 0 < m) {l b : List α} (hb : b ∈ blocks m l) :
    b.length = m := by
  induction l using block_induction hm with
  | short l hl => rw [blocks_of_lt hl] at hb; cases hb
  | cons l hl ih =>
      rw [blocks_cons hm hl] at hb
      rcases List.mem_cons.mp hb with rfl | hb
      · simpa using hl
      · exact ih hb

/-- All the blocks, the last one as long as is left. -/
def pieces (m : ℕ) (l : List α) : List (List α) :=
  blocks m l ++ if (rest m l).isEmpty then [] else [rest m l]

theorem pieces_of_lt {m : ℕ} {l : List α} (h : l.length < m) :
    pieces m l = if l.isEmpty then [] else [l] := by
  rw [pieces, blocks_of_lt h, rest_of_lt h, List.nil_append]

theorem pieces_cons {m : ℕ} {l : List α} (hm : 0 < m) (h : m ≤ l.length) :
    pieces m l = l.take m :: pieces m (l.drop m) := by
  rw [pieces, pieces, blocks_cons hm h, rest_cons hm h, List.cons_append]

/-- The last piece of a list that is not empty, and those before it. -/
theorem pieces_split {m : ℕ} (hm : 0 < m) {l : List α} (hl : l ≠ []) :
    ∃ init last, pieces m l = init ++ [last] ∧ init.flatten ++ last = l ∧
      init.flatten.length = (l.length - 1) / m * m := by
  induction l using block_induction hm with
  | short l hlt =>
      have hpos := List.length_pos_iff.mpr hl
      refine ⟨[], l, ?_, rfl, ?_⟩
      · rw [pieces_of_lt hlt, if_neg (by simpa using hl), List.nil_append]
      · rw [Nat.div_eq_of_lt (by omega), Nat.zero_mul]
        rfl
  | cons l hge ih =>
      have htake : (l.take m).length = m := by simpa using hge
      rw [pieces_cons hm hge]
      by_cases hdrop : l.drop m = []
      · have hlen : l.length = m := by
          have := List.drop_eq_nil_iff.mp hdrop
          omega
        refine ⟨[], l.take m, ?_, ?_, ?_⟩
        · rw [hdrop, pieces_of_lt (by simpa using hm)]
          rfl
        · rw [List.flatten_nil, List.nil_append, List.take_of_length_le (by omega)]
        · rw [hlen, Nat.div_eq_of_lt (by omega), Nat.zero_mul]
          rfl
      · obtain ⟨init, last, hsplit, hall, hlen⟩ := ih hdrop
        have hpos := List.length_pos_iff.mpr hdrop
        rw [List.length_drop] at hpos hlen
        refine ⟨l.take m :: init, last, ?_, ?_, ?_⟩
        · rw [hsplit, List.cons_append]
        · rw [List.flatten_cons, List.append_assoc, hall, List.take_append_drop]
        · rw [List.flatten_cons, List.length_append, htake, hlen,
            show l.length - 1 = l.length - m - 1 + m by omega, Nat.add_div_right _ hm, Nat.add_mul,
            Nat.one_mul, Nat.add_comm]

theorem ne_nil_of_mem_pieces {m : ℕ} (hm : 0 < m) {l p : List α} (hp : p ∈ pieces m l) :
    p ≠ [] := by
  rcases List.mem_append.mp hp with hp | hp
  · have hlen := length_of_mem_blocks hm hp
    rintro rfl
    exact absurd hlen (by simp; omega)
  · split_ifs at hp with hrest
    · cases hp
    · rw [List.mem_singleton.mp hp]
      simpa using hrest

/-! ### Taking lists off a queue -/

/-- The queue after enough lists to have `n` items have been taken off it. -/
def dropCover : ℕ → List (List α) → Option (List (List α))
  | 0, ps => some ps
  | _ + 1, [] => none
  | n + 1, p :: ps => if p.length < n + 1 then dropCover (n + 1 - p.length) ps else some ps

@[simp] theorem dropCover_zero (ps : List (List α)) : dropCover 0 ps = some ps := by
  cases ps <;> rfl

theorem dropCover_nil {n : ℕ} (hn : 0 < n) : dropCover n ([] : List (List α)) = none := by
  cases n with
  | zero => omega
  | succ n => rfl

theorem dropCover_cons_of_lt {n : ℕ} {p : List α} (h : p.length < n) (ps : List (List α)) :
    dropCover n (p :: ps) = dropCover (n - p.length) ps := by
  cases n with
  | zero => omega
  | succ n => simp [dropCover, h]

theorem dropCover_cons_of_le {n : ℕ} {p : List α} (hn : 0 < n) (h : n ≤ p.length)
    (ps : List (List α)) : dropCover n (p :: ps) = some ps := by
  cases n with
  | zero => omega
  | succ n => simp [dropCover]; omega

/-- The lists before the last one do not have `n` items, all together do. -/
theorem dropCover_append {n : ℕ} {ps : List (List α)} {p : List α} (qs : List (List α))
    (h₁ : ps.flatten.length < n) (h₂ : n ≤ ps.flatten.length + p.length) :
    dropCover n (ps ++ p :: qs) = some qs := by
  induction ps generalizing n with
  | nil =>
      simp only [List.flatten_nil, List.length_nil] at h₁ h₂
      exact dropCover_cons_of_le h₁ (by omega) qs
  | cons p' ps ih =>
      simp only [List.flatten_cons, List.length_append] at h₁ h₂
      rw [List.cons_append, dropCover_cons_of_lt (by omega)]
      exact ih (by omega) (by omega)

/-- The list that holds item number `n` of all. -/
theorem exists_holds {n : ℕ} (hn : 0 < n) : ∀ ps : List (List α), n ≤ ps.flatten.length →
    ∃ init last rest, ps = init ++ last :: rest ∧ init.flatten.length < n ∧
      n ≤ init.flatten.length + last.length
  | [], h => absurd h (Nat.not_le.mpr hn)
  | p :: ps, h => by
      rw [List.flatten_cons, List.length_append] at h
      rcases Nat.lt_or_ge p.length n with hlt | hge
      · obtain ⟨init, last, rest, rfl, h₁, h₂⟩ :=
          exists_holds (n := n - p.length) (by omega) ps (by omega)
        refine ⟨p :: init, last, rest, rfl, ?_, ?_⟩ <;>
        · rw [List.flatten_cons, List.length_append]
          omega
      · exact ⟨[], p, ps, rfl, hn, by simpa using hge⟩

/-- Lists that have exactly `n` items. -/
theorem dropCover_exact (qs : List (List α)) :
    ∀ ps : List (List α), (∀ p ∈ ps, p ≠ []) → dropCover ps.flatten.length (ps ++ qs) = some qs
  | [], _ => dropCover_zero qs
  | p :: ps, hne => by
      have hpos := List.length_pos_iff.mpr (hne p (List.mem_cons_self ..))
      have ih := dropCover_exact qs ps (fun q hq => hne q (List.mem_cons_of_mem _ hq))
      rw [List.flatten_cons, List.length_append, List.cons_append]
      rcases Nat.eq_zero_or_pos ps.flatten.length with hnil | hmore
      · rw [hnil, dropCover_zero] at ih
        rw [hnil, Nat.add_zero, dropCover_cons_of_le hpos (Nat.le_refl _), ih]
      · rw [dropCover_cons_of_lt (by omega), Nat.add_sub_cancel_left, ih]

/-- A queue with enough items keeps everything behind them. -/
theorem dropCover_of_le {n : ℕ} {ps : List (List α)} (qs : List (List α))
    (h : n ≤ ps.flatten.length) : ∃ rs, dropCover n (ps ++ qs) = some (rs ++ qs) := by
  induction ps generalizing n with
  | nil =>
      obtain rfl : n = 0 := by simpa using h
      exact ⟨[], by simp⟩
  | cons p ps ih =>
      simp only [List.flatten_cons, List.length_append] at h
      rcases Nat.eq_zero_or_pos n with rfl | hn
      · exact ⟨p :: ps, by simp⟩
      rcases Nat.lt_or_ge p.length n with hlt | hge
      · rw [List.cons_append, dropCover_cons_of_lt hlt]
        exact ih (by omega)
      · exact ⟨ps, by rw [List.cons_append, dropCover_cons_of_le hn hge]⟩

end Chunks
