import IguanaIR.PulseFile
import IguanaIR.ReceivedSignal
import IguanaIR.SocketNames
import Mathlib.Data.List.TakeWhile

/-! # Recorded signals

What igclient prints of the signals that it receives, and what `iguanaReadPulseFile` makes of a file
with its output.  The words of one kind that come in different packets become one entry, a space in
front and one at the end are dropped, and the other lines are skipped. -/

namespace IguanaIR

open Firmware

/-! ### The output -/

/-- `sprintf` with `%d`, of a `uint32_t`. -/
def decimalInt (value : BitVec 32) : CString :=
  if value.toInt < 0 then ascii "-" ++ decimal value.toInt.natAbs else decimal value.toNat

/-- One word in `processResponse`. -/
def printWord (value : BitVec 32) : CString :=
  if value &&& IG_PULSE_BIT ≠ 0 then ascii "\n  pulse: " ++ decimalInt (value &&& IG_PULSE_MASK)
  else ascii "\n  space: " ++ decimalInt value

/-- `processResponse` for a received signal, while a task runs that is not a sub-task. -/
def printSignal (data : List (BitVec 32)) : CString :=
  ascii "received " ++ decimal data.length ++ ascii " signal(s):" ++ data.flatMap printWord ++
    ascii "\n"

/-- A received signal, or another line of the output. -/
inductive Printed where
  | signal (data : List (BitVec 32))
  | other (line : CString)
deriving DecidableEq, Repr

namespace Printed

def text : Printed → CString
  | signal data => printSignal data
  | other line => line ++ ascii "\n"

def words : Printed → List (BitVec 32)
  | signal data => data
  | other _ => []

/-- The words are pulses and spaces of the daemon, and another line holds no number. -/
def Plain : Printed → Prop
  | signal data => data.length < 2147483648 ∧ ∀ word ∈ data, word.toNat < 33554432 ∧ 0 < duration word
  | other line => (10 : Byte) ∉ line ∧ line.length < MAX_LINE - 1 ∧
      (parseLine (line ++ ascii "\n")).value = none

end Printed

/-! ### Numbers -/

theorem digit_byte : ∀ d < 10, (BitVec.ofNat 8 (Nat.digitChar d).toNat).toNat = 48 + d := by decide

/-- `%d` reads what `%d` writes. -/
theorem decimal_value (n : ℕ) :
    (decimal n).foldl (fun n b => 10 * n + (b.toNat - 48 : ℤ)) 0 = n := by
  induction n using Nat.strong_induction_on with
  | _ n ih =>
      by_cases hsmall : n < 10
      · have hdigits : decimal n = [BitVec.ofNat 8 (Nat.digitChar n).toNat] := by
          rw [decimal_eq, Nat.toDigits_of_lt_base hsmall, List.map_singleton]
        rw [hdigits, List.foldl_cons, List.foldl_nil, digit_byte n hsmall]
        omega
      · -- the last digit
        have hdigits : decimal n =
            decimal (n / 10) ++ [BitVec.ofNat 8 (Nat.digitChar (n % 10)).toNat] := by
          rw [decimal_eq, decimal_eq, Nat.toDigits_of_base_le (by decide) (by omega),
            List.map_append, List.map_singleton]
        rw [hdigits, List.foldl_append, List.foldl_cons, List.foldl_nil, ih (n / 10) (by omega),
          digit_byte _ (by omega)]
        omega

theorem isDecimal_of_mem {n : ℕ} {b : Byte} (h : b ∈ decimal n) : isDecimal b = true := by
  obtain ⟨hlow, hhigh⟩ := decimal_isDigit h
  simp only [isDecimal, Bool.and_eq_true, decide_eq_true_eq, BitVec.le_def]
  exact ⟨hlow, hhigh⟩

theorem scanDigits_decimal (n : ℕ) {rest : List Byte}
    (hrest : ∀ b ∈ rest.head?, isDecimal b = false) :
    scanDigits (decimal n ++ rest) = some (n : ℤ) := by
  have hdigits : (decimal n ++ rest).takeWhile isDecimal = decimal n := by
    rw [List.takeWhile_append_of_pos (fun b hb => isDecimal_of_mem hb)]
    cases rest with
    | nil => simp
    | cons b rest => simp [hrest b rfl]
  rw [scanDigits, hdigits]
  simp only [decimal_ne_nil, if_false, decimal_value]

/-- A number behind a blank. -/
theorem scanInt_decimal (n : ℕ) : scanInt (ascii " " ++ decimal n ++ ascii "\n") = some (n : ℤ) := by
  obtain ⟨b, digits, hdecimal⟩ := List.exists_cons_of_ne_nil (decimal_ne_nil n)
  obtain ⟨hlow, hhigh⟩ := decimal_isDigit (show b ∈ decimal n by simp [hdecimal])
  have hvalue := scanDigits_decimal n (show ∀ b ∈ (ascii "\n").head?, isDecimal b = false by decide)
  have hspace : isspace b = false := by
    simp only [isspace, Bool.or_eq_false_iff, beq_eq_false_iff_ne, Bool.and_eq_false_iff,
      decide_eq_false_iff_not, BitVec.le_def]
    refine ⟨?_, .inr ?_⟩
    · rintro rfl
      exact absurd hlow (by decide)
    · change ¬b.toNat ≤ 13
      omega
  have hdrop : (ascii " " ++ decimal n ++ ascii "\n").dropWhile isspace =
      b :: (digits ++ ascii "\n") := by
    rw [hdecimal]
    change ((0x20 : Byte) :: b :: (digits ++ ascii "\n")).dropWhile isspace = _
    rw [List.dropWhile_cons_of_pos (by decide), List.dropWhile_cons_of_neg (by simp [hspace])]
  have hminus : b ≠ 0x2D := by
    rintro rfl
    exact absurd hlow (by decide)
  have hplus : b ≠ 0x2B := by
    rintro rfl
    exact absurd hlow (by decide)
  rw [hdecimal] at hvalue
  rw [scanInt, hdrop]
  simp only [if_neg hminus, if_neg hplus]
  exact hvalue

/-! ### Lines -/

/-- A line without comment, behind its blanks. -/
theorem trimLine_eq {line : List Byte} (h : ∀ b ∈ line, b ≠ 0 ∧ b ≠ 0x23) :
    trimLine line = line.dropWhile (ascii " \t\r\n").contains := by
  have hnull : line.takeWhile (· != 0) = line :=
    List.takeWhile_eq_self_iff.mpr (fun b hb => by simpa using (h b hb).1)
  have hcomment : line.takeWhile (· != 0x23) = line :=
    List.takeWhile_eq_self_iff.mpr (fun b hb => by simpa using (h b hb).2)
  rw [trimLine, hnull, hcomment]

theorem decimal_plain {n : ℕ} {front back : List Byte} (hfront : ∀ b ∈ front, b ≠ 0 ∧ b ≠ 0x23)
    (hback : ∀ b ∈ back, b ≠ 0 ∧ b ≠ 0x23) :
    ∀ b ∈ front ++ decimal n ++ back, b ≠ 0 ∧ b ≠ 0x23 := by
  intro b hb
  rcases List.mem_append.mp hb with hb | hb
  · rcases List.mem_append.mp hb with hb | hb
    · exact hfront b hb
    · obtain ⟨hlow, -⟩ := decimal_isDigit hb
      constructor <;> rintro rfl <;> exact absurd hlow (by decide)
  · exact hback b hb

theorem parseLine_pulse (n : ℕ) :
    parseLine (ascii "  pulse: " ++ decimal n ++ ascii "\n") = .pulse n := by
  obtain ⟨number, hnumber⟩ : ∃ number, number = ascii " " ++ decimal n ++ ascii "\n" := ⟨_, rfl⟩
  have htrim : trimLine (ascii "  pulse: " ++ decimal n ++ ascii "\n") = ascii "pulse:" ++ number := by
    rw [hnumber, trimLine_eq (decimal_plain (by decide) (by decide))]
    rfl
  have hplain : scanLabelled (ascii "pulse") (ascii "pulse:" ++ number) = none := rfl
  have hlabel : scanLabelled (ascii "pulse:") (ascii "pulse:" ++ number) = scanInt number := rfl
  have hvalue : scanInt number = some (n : ℤ) := by rw [hnumber, scanInt_decimal]
  rw [parseLine, htrim]
  simp only [hplain, hlabel, hvalue]
  rfl

theorem parseLine_space (n : ℕ) :
    parseLine (ascii "  space: " ++ decimal n ++ ascii "\n") = .space n := by
  obtain ⟨number, hnumber⟩ : ∃ number, number = ascii " " ++ decimal n ++ ascii "\n" := ⟨_, rfl⟩
  have htrim : trimLine (ascii "  space: " ++ decimal n ++ ascii "\n") = ascii "space:" ++ number := by
    rw [hnumber, trimLine_eq (decimal_plain (by decide) (by decide))]
    rfl
  have hpulse : scanLabelled (ascii "pulse") (ascii "space:" ++ number) = none := rfl
  have hpulse' : scanLabelled (ascii "pulse:") (ascii "space:" ++ number) = none := rfl
  have hplain : scanLabelled (ascii "space") (ascii "space:" ++ number) = none := rfl
  have hlabel : scanLabelled (ascii "space:") (ascii "space:" ++ number) = scanInt number := rfl
  have hvalue : scanInt number = some (n : ℤ) := by rw [hnumber, scanInt_decimal]
  rw [parseLine, htrim]
  simp only [hpulse, hpulse', hplain, hlabel, hvalue]
  rfl

/-- The line in front of the words holds a number, but does not begin with it. -/
theorem parseLine_received (n : ℕ) :
    parseLine (ascii "received " ++ decimal n ++ ascii " signal(s):\n") = .unparsable := by
  have htrim : trimLine (ascii "received " ++ decimal n ++ ascii " signal(s):\n") =
      ascii "received " ++ (decimal n ++ ascii " signal(s):\n") := by
    rw [trimLine_eq (decimal_plain (by decide) (by decide))]
    rfl
  rw [parseLine, htrim]
  rfl

/-! ### The text -/

/-- The line of a word. -/
def wordLine (word : BitVec 32) : CString :=
  (if isPulse word then ascii "  pulse: " else ascii "  space: ") ++ decimal (duration word) ++
    ascii "\n"

def Printed.lines : Printed → List CString
  | signal data => (ascii "received " ++ decimal data.length ++ ascii " signal(s):\n") ::
      data.map wordLine
  | other line => [line ++ ascii "\n"]

/-- What igclient prints, one after the other. -/
def outputText (outputs : List Printed) : CString := outputs.flatMap Printed.text

theorem duration_mod (word : BitVec 32) : duration word = word.toNat % 16777216 := by
  rw [duration, show IG_PULSE_MASK = PULSE_MASK from rfl, and_mask_toNat]

theorem printWord_eq {word : BitVec 32} (h : word.toNat < 33554432) :
    printWord word ++ ascii "\n" = ascii "\n" ++ wordLine word := by
  have hduration := duration_mod word
  have hpulse := isPulse_iff word
  have hbit := and_bit_ne_zero word
  have hnumber : decimalInt (word &&& IG_PULSE_MASK) = decimal (duration word) := by
    have hmask : (word &&& IG_PULSE_MASK).toNat = duration word := rfl
    rw [decimalInt, BitVec.toInt_eq_toNat_of_lt (by omega), if_neg (by omega), hmask]
  have hspace : ¬isPulse word = true → decimalInt word = decimal (duration word) := by
    intro hnot
    have hsmall : word.toNat < 16777216 := by
      have hzero := (hpulse.trans hbit).not.mp hnot
      omega
    rw [decimalInt, BitVec.toInt_eq_toNat_of_lt (by omega), if_neg (by omega), hduration,
      Nat.mod_eq_of_lt hsmall]
  rw [printWord, wordLine]
  by_cases hp : isPulse word = true
  · rw [if_pos (hpulse.mp hp), if_pos hp, hnumber, List.append_assoc, List.append_assoc]
    rfl
  · rw [if_neg (hpulse.not.mp hp), if_neg hp, hspace hp, List.append_assoc, List.append_assoc]
    rfl

theorem printWords_eq {data : List (BitVec 32)} (h : ∀ word ∈ data, word.toNat < 33554432) :
    data.flatMap printWord ++ ascii "\n" = ascii "\n" ++ (data.map wordLine).flatten := by
  induction data with
  | nil => rfl
  | cons word data ih =>
      rw [List.flatMap_cons, List.append_assoc, ih (fun w hw => h w (List.mem_cons_of_mem _ hw)),
        ← List.append_assoc, printWord_eq (h word (List.mem_cons_self ..)), List.append_assoc]
      rfl

theorem Printed.text_eq {p : Printed} (h : p.Plain) : p.text = p.lines.flatten := by
  cases p with
  | signal data =>
      rw [text, printSignal, List.append_assoc, printWords_eq (fun word hword => (h.2 word hword).1),
        lines, List.flatten_cons, ← List.append_assoc, List.append_assoc (ascii "received " ++ _)]
      rfl
  | other line => exact (List.append_nil _).symm

/-- A line with its end. -/
def IsLine (line : CString) : Prop := ∃ body, line = body ++ [10] ∧ (10 : Byte) ∉ body

theorem textLines_line : ∀ (body rest : List Byte), (10 : Byte) ∉ body →
    textLines (body ++ 10 :: rest) = (body ++ [10]) :: textLines rest
  | [], rest, _ => by rw [List.nil_append, textLines, if_pos rfl, List.nil_append]
  | b :: body, rest, h => by
      obtain ⟨hb, hbody⟩ := not_or.mp (List.mem_cons.not.mp h)
      rw [List.cons_append, textLines, if_neg (Ne.symm hb), textLines_line body rest hbody]
      rfl

theorem textLines_flatten {lines : List CString} (h : ∀ line ∈ lines, IsLine line) :
    textLines lines.flatten = lines := by
  induction lines with
  | nil => rfl
  | cons line lines ih =>
      obtain ⟨body, rfl, hbody⟩ := h line (List.mem_cons_self ..)
      rw [List.flatten_cons, List.append_assoc, List.singleton_append,
        textLines_line body _ hbody, ih (fun l hl => h l (List.mem_cons_of_mem _ hl))]

theorem newline_notMem_decimal (n : ℕ) : (10 : Byte) ∉ decimal n := by
  intro h
  exact absurd (decimal_isDigit h).1 (by decide)

theorem isLine_decimal (n : ℕ) {front back : CString} (hfront : (10 : Byte) ∉ front)
    (hback : (10 : Byte) ∉ back) : IsLine (front ++ decimal n ++ (back ++ [10])) := by
  refine ⟨front ++ decimal n ++ back, by simp, ?_⟩
  simp only [List.mem_append, not_or]
  exact ⟨⟨hfront, newline_notMem_decimal n⟩, hback⟩

theorem isLine_wordLine (word : BitVec 32) : IsLine (wordLine word) := by
  rw [wordLine]
  split
  · exact isLine_decimal _ (by decide) List.not_mem_nil
  · exact isLine_decimal _ (by decide) List.not_mem_nil

/-- The lines of an output are short enough for the buffer. -/
theorem Printed.lines_spec {p : Printed} (h : p.Plain) :
    ∀ line ∈ p.lines, IsLine line ∧ line.length ≤ MAX_LINE - 1 := by
  intro line hline
  have hmax : MAX_LINE = 1024 := rfl
  cases p with
  | signal data =>
      rcases List.mem_cons.mp hline with rfl | hline
      · have hlen := decimal_length (show 0 < 10 by omega) (show data.length < 10 ^ 10 by
          have hsmall := h.1
          omega)
        have hfrontLine : (10 : Byte) ∉ ascii "received " := by decide
        have hbackLine : (10 : Byte) ∉ ascii " signal(s):" := by decide
        refine ⟨isLine_decimal data.length hfrontLine hbackLine, ?_⟩
        have hfront : (ascii "received ").length = 9 := rfl
        have hback : (ascii " signal(s):\n").length = 12 := rfl
        rw [List.length_append, List.length_append, hfront, hback]
        omega
      · obtain ⟨word, -, rfl⟩ := List.mem_map.mp hline
        refine ⟨isLine_wordLine word, ?_⟩
        have hle := duration_mod word
        have hlen := decimal_length (show 0 < 10 by omega) (show duration word < 10 ^ 10 by omega)
        have hlabel : (if isPulse word then ascii "  pulse: " else ascii "  space: ").length = 9 := by
          split <;> rfl
        rw [wordLine, List.length_append, List.length_append, hlabel]
        change 9 + _ + 1 ≤ _
        omega
  | other text =>
      obtain ⟨hnewline, hlen, -⟩ := h
      obtain rfl := List.mem_singleton.mp hline
      refine ⟨⟨text, rfl, hnewline⟩, ?_⟩
      rw [List.length_append]
      change text.length + 1 ≤ _
      omega

/-- The lines of the output are read as they were printed. -/
theorem readLines_output {outputs : List Printed} (h : ∀ p ∈ outputs, p.Plain) :
    readLines (outputText outputs).length (outputText outputs) = outputs.flatMap Printed.lines := by
  have htext : outputText outputs = (outputs.flatMap Printed.lines).flatten := by
    rw [outputText]
    induction outputs with
    | nil => rfl
    | cons p outputs ih =>
        rw [List.flatMap_cons, List.flatMap_cons, List.flatten_append,
          Printed.text_eq (h p (List.mem_cons_self ..)),
          ih (fun q hq => h q (List.mem_cons_of_mem _ hq))]
  have hlines : ∀ line ∈ outputs.flatMap Printed.lines, IsLine line ∧ line.length ≤ MAX_LINE - 1 := by
    intro line hline
    obtain ⟨p, hp, hmem⟩ := List.mem_flatMap.mp hline
    exact Printed.lines_spec (h p hp) line hmem
  have hcut : textLines (outputText outputs) = outputs.flatMap Printed.lines := by
    rw [htext, textLines_flatten (fun line hline => (hlines line hline).1)]
  rw [readLines_eq _ _ (Nat.le_refl _), hcut]
  rw [hcut]
  exact fun line hline => (hlines line hline).2

/-! ### The numbers -/

/-- The kind and the number of a run. -/
def runNumber (run : Byte × ℕ) : Bool × ℤ := (decide (run.1 = 0), run.2)

theorem parseLine_wordLine (word : BitVec 32) :
    parseLine (wordLine word) =
      if isPulse word then .pulse (duration word) else .space (duration word) := by
  rw [wordLine]
  split
  · exact parseLine_pulse (duration word)
  · exact parseLine_space (duration word)

theorem wordLevels_cons (word : BitVec 32) (words : List (BitVec 32)) :
    wordLevels (word :: words) =
      (if isPulse word then 0 else STATE_MASK, duration word) :: wordLevels words := rfl

/-- The words' lines are their numbers, whatever follows. -/
theorem withKinds_words (data : List (BitVec 32)) (rest : List PulseLine)
    (hrest : ∀ pulse pulse', withKinds pulse rest = withKinds pulse' rest) (pulse : Bool) :
    withKinds pulse ((data.map wordLine).map parseLine ++ rest) =
      (wordLevels data).map runNumber ++ withKinds false rest := by
  induction data generalizing pulse with
  | nil => exact hrest pulse false
  | cons word data ih =>
      rw [wordLevels_cons, List.map_cons, List.map_cons, List.cons_append, parseLine_wordLine]
      split
      · rw [withKinds, ih]
        rfl
      · rw [withKinds, ih]
        rfl

/-- The numbers of an output, behind a pulse or a space. -/
theorem withKinds_output {outputs : List Printed} (h : ∀ p ∈ outputs, p.Plain) (pulse : Bool) :
    withKinds pulse ((outputs.flatMap Printed.lines).map parseLine) =
      (wordLevels (outputs.flatMap Printed.words)).map runNumber := by
  induction outputs generalizing pulse with
  | nil => rfl
  | cons p outputs ih =>
      have ih := ih (fun q hq => h q (List.mem_cons_of_mem _ hq))
      have hp := h p (List.mem_cons_self ..)
      rw [List.flatMap_cons, List.flatMap_cons, List.map_append]
      cases p with
      | signal data =>
          have hrest : ∀ pulse pulse', withKinds pulse ((outputs.flatMap Printed.lines).map parseLine) =
              withKinds pulse' ((outputs.flatMap Printed.lines).map parseLine) :=
            fun pulse pulse' => (ih pulse).trans (ih pulse').symm
          rw [Printed.lines, List.map_cons, List.cons_append, parseLine_received, withKinds,
            withKinds_words data _ hrest, ih, wordLevels_append, List.map_append]
          rfl
      | other line =>
          have hvalue := hp.2.2
          rw [Printed.lines, List.map_singleton, List.singleton_append]
          cases hline : parseLine (line ++ ascii "\n") with
          | blank | unparsable => exact ih pulse
          | pulse value | space value | bare value =>
              rw [hline] at hvalue
              cases hvalue

/-! ### The entries -/

/-- Pulses and spaces with a duration. -/
def Levels (l : List (Byte × ℕ)) : Prop := ∀ p ∈ l, 0 < p.2 ∧ (p.1 = 0 ∨ p.1 = STATE_MASK)

/-- The entries of the reader are merged runs. -/
theorem entriesFrom_levels : ∀ (l : List (Byte × ℕ)) (s : Byte) (d : ℕ), Levels ((s, d) :: l) →
    entriesFrom (runNumber (s, d)) (l.map runNumber) =
      (Runs.push s d (Runs.merge l)).map runNumber
  | [], s, d, h => by
      have hd : 0 < d := (h (s, d) (List.mem_cons_self ..)).1
      rw [Runs.merge_nil, Runs.push_nil s hd]
      rfl
  | (t, n) :: l, s, d, h => by
      obtain ⟨hd, hs⟩ := h (s, d) (List.mem_cons_self ..)
      obtain ⟨hn, ht⟩ := h (t, n) (List.mem_cons_of_mem _ (List.mem_cons_self ..))
      have hl : ∀ p ∈ l, 0 < p.2 ∧ (p.1 = 0 ∨ p.1 = STATE_MASK) := fun p hp =>
        h p (List.mem_cons_of_mem _ (List.mem_cons_of_mem _ hp))
      rw [List.map_cons, Runs.merge_cons]
      by_cases hst : s = t
      · subst hst
        have hsum : Levels ((s, d + n) :: l) := by
          intro p hp
          rcases List.mem_cons.mp hp with rfl | hp
          · exact ⟨by simp only; omega, hs⟩
          · exact hl p hp
        have ih := entriesFrom_levels l s (d + n) hsum
        have hadd : addNumber (runNumber (s, d)) (runNumber (s, n)) = runNumber (s, d + n) := rfl
        rw [Runs.push_push, ← ih, ← hadd]
        exact entriesFrom_same (runNumber (s, d)) n (l.map runNumber)
      · have hkind : runNumber (t, n) = (!(runNumber (s, d)).1, (n : ℤ)) := by
          have hdecide : decide (t = 0) = !decide (s = 0) := by
            rcases hs with rfl | rfl <;> rcases ht with rfl | rfl <;> first | rfl | exact absurd rfl hst
          exact Prod.ext hdecide rfl
        have hnext : Levels ((t, n) :: l) := fun p hp => h p (List.mem_cons_of_mem _ hp)
        have ih := entriesFrom_levels l t n hnext
        rw [Runs.push_other hst hd hn, List.map_cons, ← ih, hkind]
        exact entriesFrom_other (runNumber (s, d)) n (l.map runNumber)

/-- A space in front is no entry. -/
theorem allEntries_levels {l : List (Byte × ℕ)} (h : Levels l) :
    allEntries (l.map runNumber) =
      ((Runs.merge l).dropWhile (fun p => decide (p.1 ≠ 0))).map runNumber := by
  have hdrop : (l.map runNumber).dropWhile (fun e => !e.1) =
      (l.dropWhile (fun p => decide (p.1 ≠ 0))).map runNumber := by
    rw [List.dropWhile_map]
    congr 2
    funext p
    simp [runNumber]
  have hmerge := Runs.merge_dropWhile (fun s : Byte => decide (s ≠ 0)) (fun p hp => (h p hp).1)
  rw [allEntries, hdrop, ← hmerge]
  cases hrest : l.dropWhile (fun p => decide (p.1 ≠ 0)) with
  | nil => rfl
  | cons p rest =>
      obtain ⟨s, d⟩ := p
      have hsub : Levels ((s, d) :: rest) := by
        rw [← hrest]
        exact fun q hq => h q ((List.dropWhile_sublist _).mem hq)
      exact entriesFrom_levels rest s d hsub

/-! ### The file -/

/-- The words of runs. -/
def signalWords (runs : List (Byte × ℕ)) : List (BitVec 32) :=
  runs.map (fun run => lircWord (decide (run.1 = 0)) run.2)

/-- The signal of an output: its runs, without a space in front or at the end. -/
def recordedRuns (outputs : List Printed) : List (Byte × ℕ) :=
  Runs.trim (fun s => decide (s ≠ 0)) (Runs.merge (wordLevels (outputs.flatMap Printed.words)))

theorem entryWord_runNumber {run : Byte × ℕ} (h : run.2 ≤ IG_PULSE_MASK.toNat) :
    entryWord (runNumber run) = lircWord (decide (run.1 = 0)) run.2 := by
  obtain ⟨s, d⟩ := run
  obtain ⟨pulse, hpulse⟩ : ∃ pulse, pulse = decide (s = 0) := ⟨_, rfl⟩
  have hword := @entryWord_toNat (pulse, (d : ℤ)) ⟨Int.natCast_nonneg d, Int.ofNat_le.mpr h⟩
  have hlirc := @lircWord_toNat pulse d h
  have hbit : IG_PULSE_BIT.toNat = 16777216 := rfl
  have hrun : runNumber (s, d) = (pulse, (d : ℤ)) := by rw [runNumber, hpulse]
  rw [hrun, ← hpulse]
  apply BitVec.eq_of_toNat_eq
  change (entryWord (pulse, (d : ℤ))).toNat = (lircWord pulse d).toNat
  cases pulse with
  | false =>
      simp only [Bool.false_eq_true, if_false] at hword hlirc
      omega
  | true =>
      simp only [if_true, hbit] at hword hlirc
      omega

theorem levels_output {outputs : List Printed} (h : ∀ p ∈ outputs, p.Plain) :
    Levels (wordLevels (outputs.flatMap Printed.words)) := by
  intro p hp
  obtain ⟨word, hword, rfl⟩ := List.mem_map.mp hp
  obtain ⟨output, houtput, hmem⟩ := List.mem_flatMap.mp hword
  have hplain := h output houtput
  cases output with
  | signal data =>
      refine ⟨(hplain.2 word hmem).2, ?_⟩
      split
      · exact .inl rfl
      · exact .inr rfl
  | other line => cases hmem

/-- The numbers of an output are short of the bit. -/
theorem values_output {outputs : List Printed} (h : ∀ p ∈ outputs, p.Plain) :
    ∀ line ∈ (outputs.flatMap Printed.lines).map parseLine, ∀ value ∈ line.value, InRange value := by
  intro line hline value hvalue
  obtain ⟨text, htext, rfl⟩ := List.mem_map.mp hline
  obtain ⟨output, houtput, hmem⟩ := List.mem_flatMap.mp htext
  have hplain := h output houtput
  cases output with
  | signal data =>
      rcases List.mem_cons.mp hmem with rfl | hmem
      · rw [parseLine_received] at hvalue
        cases hvalue
      · obtain ⟨word, -, rfl⟩ := List.mem_map.mp hmem
        have hle : duration word ≤ IG_PULSE_MASK.toNat := duration_le word
        have hrange : InRange (duration word) := ⟨Int.natCast_nonneg _, Int.ofNat_le.mpr hle⟩
        rw [parseLine_wordLine] at hvalue
        split at hvalue
        · exact Option.some.inj hvalue ▸ hrange
        · exact Option.some.inj hvalue ▸ hrange
  | other other =>
      rw [List.mem_singleton.mp hmem, hplain.2.2] at hvalue
      cases hvalue

/-- What the reader holds at the end, without a trailing space. -/
theorem PulseReader.Holds.result {s : PulseReader} {entries : List (Bool × ℤ)}
    (h : s.Holds [] entries) : s.count = (trimSpace entries).length ∧
      s.pulses.take (trimSpace entries).length = (trimSpace entries).map entryWord := by
  obtain ⟨es, e, rfl, hspace⟩ := h.last
  have hpulses : s.pulses = (es ++ [e]).map entryWord := h.pulses
  have hcount : s.pulses.length = es.length + 1 := by simp [hpulses]
  rw [trimSpace, List.getLast?_concat, List.dropLast_concat, PulseReader.count, hspace, hcount,
    hpulses]
  obtain ⟨pulse, total⟩ := e
  cases pulse <;> simp

theorem trimSpace_map (l : List (Byte × ℕ)) :
    trimSpace (l.map runNumber) =
      (if l.getLast?.any (fun p => decide (p.1 ≠ 0)) then l.dropLast else l).map runNumber := by
  have hany : (l.map runNumber).getLast?.any (fun e => !e.1) =
      l.getLast?.any (fun p => decide (p.1 ≠ 0)) := by
    rw [List.getLast?_map, Option.any_map]
    congr 1
    funext p
    simp [runNumber]
  rw [trimSpace, hany]
  split
  · rw [List.map_dropLast]
  · rfl

/-- The entries of a text, without a space in front or at the end. -/
def textEntries (text : CString) : List (Bool × ℤ) :=
  trimSpace (allEntries (withKinds false ((readLines text.length text).map parseLine)))

/-- What is read of a text whose numbers are short of the bit. -/
theorem readPulseFile_entries {text : CString}
    (h : ∀ line ∈ (readLines text.length text).map parseLine, ∀ value ∈ line.value, InRange value) :
    ∃ (count : ℤ) (pulses : List (BitVec 32)),
      iguanaReadPulseFile (some text) = some (count, pulses) ∧
      count = (if textEntries text = [] then -1 else (textEntries text).length : ℤ) ∧
      pulses.take (textEntries text).length = (textEntries text).map entryWord := by
  obtain ⟨s, hrun, hs⟩ := readLines_start _ h
  have hresult : iguanaReadPulseFile (some text) = some (s.count, s.pulses) ∨
      iguanaReadPulseFile (some text) = some (-1, []) ∧ textEntries text = [] := by
    rw [iguanaReadPulseFile, textEntries]
    cases hcases : readLines text.length text with
    | nil => exact .inr ⟨rfl, rfl⟩
    | cons line lines =>
        rw [hcases] at hrun
        refine .inl ?_
        simp only [hrun, Option.map_some]
  rcases hresult with hresult | ⟨hresult, hnil⟩
  · rcases hs with ⟨hnil, rfl⟩ | hholds
    · have hentries : textEntries text = [] := by
        rw [textEntries, hnil]
        rfl
      refine ⟨_, _, hresult, ?_, ?_⟩
      · rw [if_pos hentries]
        rfl
      · rw [hentries]
        rfl
    · obtain ⟨hcount, htake⟩ := hholds.result
      obtain ⟨es, e, hes, -⟩ := hholds.last
      obtain ⟨hchain, hhead⟩ := allEntries_isChain
        (withKinds false ((readLines text.length text).map parseLine))
      rw [hes] at hchain hhead
      obtain ⟨-, hodd, -⟩ := trimSpace_append hchain hhead
      rw [← hes] at hodd
      have hne : textEntries text ≠ [] := by
        intro hnil
        rw [textEntries] at hnil
        rw [hnil] at hodd
        cases hodd
      refine ⟨_, _, hresult, ?_, htake⟩
      rw [if_neg hne, hcount]
      rfl
  · refine ⟨_, _, hresult, ?_, ?_⟩
    · rw [if_pos hnil]
    · rw [hnil]
      rfl

/-- The entries of the output. -/
theorem textEntries_output {outputs : List Printed} (h : ∀ p ∈ outputs, p.Plain) :
    textEntries (outputText outputs) = (recordedRuns outputs).map runNumber := by
  rw [textEntries, readLines_output h, withKinds_output h, allEntries_levels (levels_output h),
    trimSpace_map]
  rfl

/-- The words of the entries. -/
theorem entryWords_output {runs : List (Byte × ℕ)} (h : ∀ run ∈ runs, run.2 ≤ IG_PULSE_MASK.toNat) :
    (runs.map runNumber).map entryWord = signalWords runs := by
  rw [List.map_map]
  exact List.map_congr_left (fun run hmem => entryWord_runNumber (h run hmem))

/-- **What igclient prints is read back**: the words of a file with its output are the merged runs
of all the signals in it, unless one is too long for a word. -/
theorem recorded_read {outputs : List Printed} (hplain : ∀ p ∈ outputs, p.Plain)
    (hfits : ∀ run ∈ recordedRuns outputs, run.2 ≤ IG_PULSE_MASK.toNat) :
    ∃ (count : ℤ) (pulses : List (BitVec 32)),
      iguanaReadPulseFile (some (outputText outputs)) = some (count, pulses) ∧
      count = (if recordedRuns outputs = [] then -1 else (recordedRuns outputs).length : ℤ) ∧
      pulses.take (recordedRuns outputs).length = signalWords (recordedRuns outputs) := by
  have hvalues := values_output hplain
  rw [← readLines_output hplain] at hvalues
  obtain ⟨count, pulses, hread, hcount, htake⟩ := readPulseFile_entries hvalues
  rw [textEntries_output hplain, List.length_map] at hcount htake
  rw [entryWords_output hfits] at htake
  exact ⟨count, pulses, hread, by simpa using hcount, htake⟩

/-- A signal in two responses, between other lines; it begins with a space. -/
def twoResponses : List Printed :=
  [.other (ascii "receiver on: success"), .signal [0x00005555, 0x01000064],
    .signal [0x01000014, 0x0000001E, 0x01000007], .other (ascii "sleep (1.000): success")]

theorem recorded_read_two : ∃ pulses,
    iguanaReadPulseFile (some (outputText twoResponses)) = some (3, pulses) ∧
      pulses.take 3 = [0x01000078, 0x0000001E, 0x01000007] := by
  have hruns : recordedRuns twoResponses = [(0, 120), (0x80, 30), (0, 7)] := by decide
  have hplain : ∀ p ∈ twoResponses, p.Plain := by
    intro p hp
    simp only [twoResponses, List.mem_cons, List.not_mem_nil, or_false] at hp
    rcases hp with rfl | rfl | rfl | rfl
    · exact ⟨by decide, by decide, by decide⟩
    · simp [Printed.Plain, duration, IG_PULSE_MASK]
    · simp [Printed.Plain, duration, IG_PULSE_MASK]
    · exact ⟨by decide, by decide, by decide⟩
  obtain ⟨count, pulses, hread, hcount, htake⟩ := recorded_read hplain (by rw [hruns]; decide)
  rw [hruns] at hcount htake
  rw [hcount] at hread
  exact ⟨pulses, hread, htake⟩

/-! ### From the timer to the file -/

namespace Printed

def isSignal : Printed → Option (List (BitVec 32))
  | signal data => some data
  | other _ => none

end Printed

/-- The words are the runs of the bytes, as in `Renders`, but for a space in front and at the end. -/
structure Records (code : List Byte) (words : List (BitVec 32)) : Prop where
  lower : Runs.Le (Runs.trim (fun s => decide (s ≠ 0))
    (Runs.merge (Runs.scale microseconds (byteTicks code)))) (wordLevels words)
  upper : Runs.Le (wordLevels words) (Runs.trim (fun s => decide (s ≠ 0))
    (Runs.scale microseconds (Runs.merge (byteTicks code))))

theorem words_output {outputs : List Printed} {words : List (List (BitVec 32))}
    (h : outputs.filterMap Printed.isSignal = words) :
    outputs.flatMap Printed.words = words.flatten := by
  subst h
  induction outputs with
  | nil => rfl
  | cons p outputs ih =>
      rw [List.flatMap_cons, ih]
      cases p with
      | signal data => rfl
      | other line => rfl

theorem wordLevels_signalWords {runs : List (Byte × ℕ)}
    (h : ∀ run ∈ runs, run.2 ≤ PULSE_MASK.toNat ∧ (run.1 = 0 ∨ run.1 = STATE_MASK)) :
    wordLevels (signalWords runs) = runs := by
  have hrun : ∀ run ∈ runs, (if isPulse (lircWord (decide (run.1 = 0)) run.2) then 0 else STATE_MASK,
      duration (lircWord (decide (run.1 = 0)) run.2)) = run := by
    intro run hmem
    obtain ⟨hle, hstate⟩ := h run hmem
    rw [isPulse_lircWord _ hle, duration_lircWord _ hle]
    obtain ⟨s, d⟩ := run
    rcases hstate with rfl | rfl <;> rfl
  rw [wordLevels, signalWords, List.map_map]
  exact (List.map_congr_left hrun).trans (List.map_id' runs)

/-- **From the timer to a pulse file.**  A client that receives pulses prints them among other lines;
what is read of a file with its output are the runs of the bytes in the firmware's packets, unless
one is too long for a word. -/
theorem recordedSignal {c c' : Chip} {es : List SignalEvent} {os : List Unit} (h : c.Listens)
    (hrunning : ¬halted c.mcu) (halt : AlternatingEdges es)
    (hroom : Transition.Guarded signalStep HasRoom c es)
    (hrun : Transition.run signalStep c es = some (c', os)) (settings : ReaderSettings) (prev : ℤ) :
    ∃ packets queue words, Arrives settings prev c c' es packets queue ∧
      List.Forall₂ TellsWords queue words ∧
      ∀ outputs, outputs.filterMap Printed.isSignal = words →
        (∀ line, .other line ∈ outputs → (Printed.other line).Plain) →
        (∀ run ∈ Runs.merge (byteTicks (packetBytes packets)),
          microseconds run.2 ≤ IG_PULSE_MASK.toNat) →
        ∃ (count : ℤ) (pulses : List (BitVec 32)),
          iguanaReadPulseFile (some (outputText outputs)) = some (count, pulses) ∧
          Records (packetBytes packets) (pulses.take count.toNat) := by
  obtain ⟨packets, queue, harrives⟩ := signal_arrives h hrunning halt hroom hrun settings prev
  obtain ⟨words, htold, hwords⟩ := harrives.pieceWords
  refine ⟨packets, queue, words, harrives, htold, ?_⟩
  intro outputs houtputs hother hshort
  have hflat := words_output houtputs
  obtain ⟨hlower, hupper⟩ := hwords.bounds
  rw [← hflat] at hlower hupper
  have hplain : ∀ p ∈ outputs, p.Plain := by
    intro p hp
    cases p with
    | other line => exact hother line hp
    | signal data =>
        have hmem : data ∈ words := by
          rw [← houtputs]
          exact List.mem_filterMap.mpr ⟨.signal data, hp, rfl⟩
        have hcount := hwords.count data hmem
        refine ⟨by omega, fun word hword => ?_⟩
        have hall : word ∈ words.flatten := List.mem_flatten.mpr ⟨data, hmem, hword⟩
        exact ⟨hwords.small word hall, hwords.pos word hall⟩
  have hmerged : ∀ run ∈ Runs.merge (wordLevels (outputs.flatMap Printed.words)),
      run.2 ≤ IG_PULSE_MASK.toNat := by
    apply hupper.bounded
    intro run hrun
    obtain ⟨long, hlong, rfl⟩ := List.mem_map.mp hrun
    exact hshort long hlong
  have hruns : ∀ run ∈ recordedRuns outputs,
      run.2 ≤ IG_PULSE_MASK.toNat ∧ (run.1 = 0 ∨ run.1 = STATE_MASK) := by
    intro run hrun
    have hmem := Runs.mem_of_mem_trim hrun
    obtain ⟨level, hlevel, heq⟩ := Runs.mem_merge hmem
    exact ⟨hmerged run hmem, heq ▸ (levels_output hplain level hlevel).2⟩
  have hvalues := values_output hplain
  rw [← readLines_output hplain] at hvalues
  obtain ⟨count, pulses, hread, hcount, htake⟩ := readPulseFile_entries hvalues
  rw [textEntries_output hplain, List.length_map] at hcount htake
  rw [entryWords_output (fun run hrun => (hruns run hrun).1)] at htake
  have hlength : count.toNat = (recordedRuns outputs).length := by
    rw [hcount]
    split
    · rename_i hnil
      rw [List.map_eq_nil_iff.mp hnil]
      rfl
    · rfl
  have hlevels : wordLevels (pulses.take count.toNat) = recordedRuns outputs := by
    rw [hlength, htake, wordLevels_signalWords hruns]
  refine ⟨count, pulses, hread, ?_, ?_⟩
  · rw [hlevels]
    exact hlower.trim _
  · rw [hlevels]
    exact hupper.trim _

/-- The output of a client that turns the receiver on and sleeps. -/
def receiverOutput (words : List (List (BitVec 32))) : List Printed :=
  .other (ascii "receiver on: success") ::
    (words.map .signal ++ [.other (ascii "sleep (1.000): success")])

theorem receiverOutput_signals (words : List (List (BitVec 32))) :
    (receiverOutput words).filterMap Printed.isSignal = words := by
  have hsignals : (words.map Printed.signal).filterMap Printed.isSignal = words := by
    rw [List.filterMap_map]
    exact List.filterMap_some
  change (words.map Printed.signal ++ _).filterMap Printed.isSignal = words
  rw [List.filterMap_append, hsignals]
  exact List.append_nil words

theorem receiverOutput_plain (words : List (List (BitVec 32))) (line : CString)
    (h : .other line ∈ receiverOutput words) : (Printed.other line).Plain := by
  simp only [receiverOutput, List.mem_cons, List.mem_append, List.mem_map, Printed.other.injEq,
    reduceCtorEq, and_false, exists_false, List.not_mem_nil, or_false, false_or] at h
  rcases h with rfl | rfl
  · exact ⟨by decide, by decide, by decide⟩
  · exact ⟨by decide, by decide, by decide⟩

theorem recordedSignal_cut : ∃ packets words count pulses,
    packetBytes packets = captureBytes true 0xFA00 ++ captureBytes false 0xA280 ∧
    iguanaReadPulseFile (some (outputText (receiverOutput words))) = some (count, pulses) ∧
    Records (packetBytes packets) (pulses.take count.toNat) := by
  obtain ⟨c', os, hrun, hidle, hreceived, -⟩ := cutPulse_run
  obtain ⟨packets, queue, words, harrives, -, hrecorded⟩ :=
    recordedSignal listening_listens (by decide) cutPulse_edges cutPulse_room hrun
      ⟨8, BODY_9, false⟩ 0
  have hbytes := (harrives.whole hidle hreceived).trans cutPulse_stream
  have hshort : ∀ run ∈ Runs.merge (byteTicks (packetBytes packets)),
      microseconds run.2 ≤ IG_PULSE_MASK.toNat := by
    rw [hbytes]
    decide +kernel
  obtain ⟨count, pulses, hread, hwords⟩ := hrecorded (receiverOutput words)
    (receiverOutput_signals words) (receiverOutput_plain words) hshort
  exact ⟨packets, words, count, pulses, hbytes, hread, hwords⟩

end IguanaIR
