import Mathlib.Algebra.Group.Nat.Defs
import Mathlib.Data.List.Basic
import Mathlib.Data.List.TakeWhile
import Mathlib.Tactic.Ring

/-! # Hexadecimal texts

Numbers of hexadecimal digits as a script language reads them: `int16` allows blanks around the
number, a sign, the prefix `0x`, and single underscores between digits.  `render` writes a number
with a fixed count of digits, and `int16_render` reads it back.

A text is a list of ASCII characters; `splitWords` cuts it at its blanks. -/

namespace HexText

/-! ### Blanks -/

def isSpace (c : Char) : Bool :=
  c == ' ' || (9 ≤ c.toNat && c.toNat ≤ 13) || (28 ≤ c.toNat && c.toNat ≤ 31)

def strip (s : List Char) : List Char :=
  ((s.dropWhile isSpace).reverse.dropWhile isSpace).reverse

def splitWords (s : List Char) : List (List Char) := (s.splitOnP isSpace).filter (· ≠ [])

theorem dropWhile_of_head {c : Char} {s : List Char} (h : isSpace c = false) :
    (c :: s).dropWhile isSpace = c :: s := List.dropWhile_cons_of_neg (by simp [h])

/-- A text is stripped of the blanks behind it. -/
theorem strip_append {s pad : List Char} (hpad : ∀ c ∈ pad, isSpace c = true)
    (hfirst : ∀ c ∈ s.head?, isSpace c = false) (hlast : ∀ c ∈ s.getLast?, isSpace c = false) :
    strip (s ++ pad) = s := by
  rcases List.eq_nil_or_concat s with rfl | ⟨s', c, rfl⟩
  · have hnil : pad.dropWhile isSpace = [] := List.dropWhile_eq_nil_iff.mpr hpad
    rw [strip, List.nil_append, hnil]
    rfl
  · have hc : isSpace c = false := hlast c (by simp)
    have hfront : ((s' ++ [c]) ++ pad).dropWhile isSpace = (s' ++ [c]) ++ pad := by
      cases s' with
      | nil => exact dropWhile_of_head hc
      | cons b s' => exact dropWhile_of_head (hfirst b rfl)
    have hback : (pad.reverse ++ (c :: s'.reverse)).dropWhile isSpace = c :: s'.reverse := by
      rw [List.dropWhile_append_of_pos (fun x hx => hpad x (List.mem_reverse.mp hx)),
        dropWhile_of_head hc]
    rw [List.concat_eq_append, strip, hfront, List.reverse_append, List.reverse_concat, hback,
      List.reverse_cons, List.reverse_reverse]

/-- Words with one blank between them. -/
theorem splitWords_cons {word : List Char} {c : Char} {s : List Char} (hne : word ≠ [])
    (hword : ∀ x ∈ word, isSpace x = false) (hc : isSpace c = true) :
    splitWords (word ++ c :: s) = word :: splitWords s := by
  rw [splitWords, List.splitOnP_append_cons_of_forall_mem hword c hc s,
    List.filter_cons_of_pos (by simpa using hne), splitWords]

theorem splitWords_single {word : List Char} (hne : word ≠ [])
    (hword : ∀ x ∈ word, isSpace x = false) : splitWords word = [word] := by
  rw [splitWords, List.splitOnP_eq_singleton hword, List.filter_cons_of_pos (by simpa using hne),
    List.filter_nil]

/-- The words of a text that starts with one and has a blank in front of each of the others. -/
theorem splitWords_flatMap {words : List (List Char)}
    (hwords : ∀ w ∈ words, w ≠ [] ∧ ∀ x ∈ w, isSpace x = false) {word : List Char}
    (hne : word ≠ []) (hword : ∀ x ∈ word, isSpace x = false) :
    splitWords (word ++ words.flatMap (fun w => ' ' :: w)) = word :: words := by
  induction words generalizing word with
  | nil => rw [List.flatMap_nil, List.append_nil, splitWords_single hne hword]
  | cons w words ih =>
      obtain ⟨hw, hrest⟩ := List.forall_mem_cons.mp hwords
      rw [List.flatMap_cons, List.cons_append, splitWords_cons hne hword rfl, ih hrest hw.1 hw.2]

/-- Such a text loses nothing but the blanks behind it. -/
theorem strip_flatMap {words : List (List Char)}
    (hwords : ∀ w ∈ words, w ≠ [] ∧ ∀ x ∈ w, isSpace x = false) {word pad : List Char}
    (hne : word ≠ []) (hword : ∀ x ∈ word, isSpace x = false)
    (hpad : ∀ c ∈ pad, isSpace c = true) :
    strip (word ++ words.flatMap (fun w => ' ' :: w) ++ pad) =
      word ++ words.flatMap (fun w => ' ' :: w) := by
  apply strip_append hpad
  · intro c hc
    rw [List.head?_append_of_ne_nil _ hne] at hc
    exact hword c (List.mem_of_mem_head? hc)
  · intro c hc
    rcases List.eq_nil_or_concat words with rfl | ⟨front, w, rfl⟩
    · rw [List.flatMap_nil, List.append_nil] at hc
      exact hword c (List.mem_of_getLast? hc)
    · obtain ⟨hw, hplain⟩ := hwords w (by simp)
      rw [List.concat_eq_append, List.flatMap_append, List.flatMap_singleton, ← List.append_assoc,
        List.getLast?_append_of_ne_nil _ (List.cons_ne_nil _ _),
        ← List.singleton_append, List.getLast?_append_of_ne_nil _ hw] at hc
      exact hplain c (List.mem_of_getLast? hc)

/-! ### Digits -/

def digit (n : ℕ) : Char := if n < 10 then Char.ofNat (48 + n) else Char.ofNat (87 + n)

def value (c : Char) : Option ℕ :=
  if '0' ≤ c ∧ c ≤ '9' then some (c.toNat - 48)
  else if 'a' ≤ c ∧ c ≤ 'f' then some (c.toNat - 87)
  else if 'A' ≤ c ∧ c ≤ 'F' then some (c.toNat - 55)
  else none

theorem value_digit : ∀ n < 16, value (digit n) = some n := by decide

/-- Digits are no blanks, signs, underscores or colons, nor the letter of the prefix. -/
theorem digit_plain : ∀ n < 16, isSpace (digit n) = false ∧
    digit n ∉ ['-', '+', '_', 'x', 'X', ':'] := by decide

/-- The digits of a number, where `after` says that there was a digit in front of them. -/
def digitsValue (after : Bool) (acc : ℕ) : List Char → Option ℕ
  | [] => if after then some acc else none
  | c :: s =>
      if c = '_' then if after then digitsValue false acc s else none
      else (value c).bind (fun d => digitsValue true (16 * acc + d) s)

def unsigned (s : List Char) : Option ℕ :=
  if s.take 2 = ['0', 'x'] ∨ s.take 2 = ['0', 'X'] then
    digitsValue false 0 (if (s.drop 2).head? = some '_' then s.drop 3 else s.drop 2)
  else digitsValue false 0 s

/-- `int(s, 16)`. -/
def int16 (s : List Char) : Option ℤ :=
  let s := strip s
  if s.head? = some '-' then (unsigned (s.drop 1)).map (fun n => -Int.ofNat n)
  else if s.head? = some '+' then (unsigned (s.drop 1)).map Int.ofNat
  else (unsigned s).map Int.ofNat

/-! ### Numbers of a fixed width -/

/-- The last `width` digits. -/
def render : ℕ → ℕ → List Char
  | 0, _ => []
  | width + 1, n => digit (n / 16 ^ width % 16) :: render width n

@[simp] theorem render_length (width n : ℕ) : (render width n).length = width := by
  induction width with
  | zero => rfl
  | succ width ih => rw [render, List.length_cons, ih]

theorem mem_render {width n : ℕ} {c : Char} (h : c ∈ render width n) : ∃ d < 16, c = digit d := by
  induction width with
  | zero => cases h
  | succ width ih =>
      obtain rfl | h := List.mem_cons.mp h
      · exact ⟨_, Nat.mod_lt _ (by decide), rfl⟩
      · exact ih h

theorem render_plain {width n : ℕ} {c : Char} (h : c ∈ render width n) :
    isSpace c = false ∧ c ∉ ['-', '+', '_', 'x', 'X', ':'] := by
  obtain ⟨d, hd, rfl⟩ := mem_render h
  exact digit_plain d hd

theorem digitsValue_digit {after : Bool} {acc d : ℕ} {s : List Char} (hd : d < 16) :
    digitsValue after acc (digit d :: s) = digitsValue true (16 * acc + d) s := by
  have hne : digit d ≠ '_' := fun h => (digit_plain d hd).2 (by simp [h])
  rw [digitsValue, if_neg hne, value_digit d hd, Option.bind_some]

theorem digitsValue_render (width n acc : ℕ) :
    digitsValue true acc (render width n) = some (acc * 16 ^ width + n % 16 ^ width) := by
  induction width generalizing acc with
  | zero => simp [render, digitsValue, Nat.mod_one]
  | succ width ih =>
      rw [render, digitsValue_digit (Nat.mod_lt _ (by decide)), ih, pow_succ, Nat.mod_mul]
      congr 1
      ring

/-- **A number is read back.** -/
theorem int16_render {width n : ℕ} (h : n < 16 ^ (width + 1)) :
    int16 (render (width + 1) n) = some (n : ℤ) := by
  have hplain (c : Char) (hc : c ∈ render (width + 1) n) := render_plain hc
  have hstrip : strip (render (width + 1) n) = render (width + 1) n := by
    have hstripped := @strip_append (render (width + 1) n) [] (by simp)
      (fun c hc => (hplain c (List.mem_of_mem_head? hc)).1)
      (fun c hc => (hplain c (List.mem_of_getLast? hc)).1)
    rwa [List.append_nil] at hstripped
  have hhead {c : Char} (hc : c ∈ ['-', '+', '_', 'x', 'X', ':']) :
      (render (width + 1) n).head? ≠ some c :=
    fun h => (hplain c (List.mem_of_mem_head? h)).2 hc
  have hprefix {c : Char} (hc : c ∈ ['-', '+', '_', 'x', 'X', ':']) :
      (render (width + 1) n).take 2 ≠ ['0', c] := by
    intro htake
    have hmem : c ∈ (render (width + 1) n).take 2 := by rw [htake]; simp
    exact (hplain c (List.mem_of_mem_take hmem)).2 hc
  have hdigits : digitsValue false 0 (render (width + 1) n) = some n := by
    rw [render, digitsValue_digit (Nat.mod_lt _ (by decide)), digitsValue_render]
    have hmod := Nat.mod_mul (a := 16 ^ width) (b := 16) (x := n)
    rw [← pow_succ, Nat.mod_eq_of_lt h, add_comm, mul_comm] at hmod
    rw [Nat.mul_zero, Nat.zero_add, ← hmod]
  have hunsigned : unsigned (render (width + 1) n) = some n := by
    rw [unsigned, if_neg, hdigits]
    rintro (h | h)
    · exact hprefix (by simp) h
    · exact hprefix (by simp) h
  unfold int16
  dsimp only
  rw [hstrip, if_neg (hhead (by simp)), if_neg (hhead (by simp)), hunsigned]
  rfl

theorem render_inj {width n m : ℕ} (hn : n < 16 ^ (width + 1)) (hm : m < 16 ^ (width + 1))
    (h : render (width + 1) n = render (width + 1) m) : n = m := by
  have heq := int16_render hn
  rw [h, int16_render hm] at heq
  exact_mod_cast (Option.some.inj heq).symm

end HexText
