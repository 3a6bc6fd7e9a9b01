import Mathlib.Algebra.Order.BigOperators.Group.List
import Mathlib.Algebra.Order.Ring.Int
import IguanaIR.KindRuns
import IguanaIR.LircReceive
import IguanaIR.Server

/-! # Pulse files

`iguanaReadPulseFile` of `iguanaIR.c` with the parts of `fgets` and `sscanf` that it uses.  Its array
is undefined (`none`) where it would be written outside of its entries.

A line adds to the entry before it when it has the same kind, and the entries carry the bit of a
pulse already, so a sum that is too large runs into it. -/

namespace IguanaIR

/-! ### Lines -/

/-- As many characters as fit, up to a newline, and the rest. -/
def fgets : ℕ → List Byte → List Byte × List Byte
  | 0, rest => ([], rest)
  | _ + 1, [] => ([], [])
  | n + 1, b :: rest =>
      if b = 10 then ([b], rest)
      else ((b :: (fgets n rest).1), (fgets n rest).2)

def MAX_LINE : ℕ := 1024

/-- What `fgets` returns, one after the other; each takes a character or more. -/
def readLines : ℕ → List Byte → List (List Byte)
  | 0, _ => []
  | fuel + 1, text =>
      if text = [] then []
      else (fgets (MAX_LINE - 1) text).1 :: readLines fuel (fgets (MAX_LINE - 1) text).2

/-- `isspace`. -/
def isspace (b : Byte) : Bool := b == 0x20 || (0x09 ≤ b && b ≤ 0x0D)

def isDecimal (b : Byte) : Bool := 0x30 ≤ b && b ≤ 0x39

def scanDigits (s : List Byte) : Option ℤ :=
  let digits := s.takeWhile isDecimal
  if digits = [] then none else some (digits.foldl (fun n b => 10 * n + (b.toNat - 48 : ℤ)) 0)

/-- `%d`. -/
def scanInt (s : List Byte) : Option ℤ :=
  match s.dropWhile isspace with
  | [] => none
  | b :: rest =>
      if b = 0x2D then (scanDigits rest).map (fun value => -value)
      else if b = 0x2B then scanDigits rest
      else scanDigits (b :: rest)

/-- `sscanf` of a word, blanks and a number. -/
def scanLabelled (label : CString) (line : List Byte) : Option ℤ :=
  if label.isPrefixOf line then scanInt (line.drop label.length) else none

inductive PulseLine where
  | blank
  | pulse (value : ℤ)
  | space (value : ℤ)
  | bare (value : ℤ)
  | unparsable
deriving DecidableEq, Repr

/-- The line without its comment and its leading blanks. -/
def trimLine (buffer : List Byte) : List Byte :=
  ((buffer.takeWhile (· != 0)).takeWhile (· != 0x23)).dropWhile (ascii " \t\r\n").contains

def parseLine (buffer : List Byte) : PulseLine :=
  let line := trimLine buffer
  if line = [] then .blank
  else match (scanLabelled (ascii "pulse") line).or (scanLabelled (ascii "pulse:") line) with
    | some value => .pulse value
    | none =>
        match (scanLabelled (ascii "space") line).or (scanLabelled (ascii "space:") line) with
        | some value => .space value
        | none =>
            match scanInt line with
            | some value => .bare value
            | none => .unparsable

/-! ### The loop -/

/-- The entries of the array, and whether the last one is a space. -/
structure PulseReader where
  pulses : List (BitVec 32)
  inSpace : Bool
deriving DecidableEq, Repr

namespace PulseReader

def start : PulseReader := ⟨[], true⟩

/-- `pulses[count - 1] += value`. -/
def combine (s : PulseReader) (value : ℤ) : Option PulseReader :=
  s.pulses.getLast?.map (fun word =>
    { s with pulses := s.pulses.dropLast ++ [word + BitVec.ofInt 32 value] })

/-- The next entry. -/
def append (s : PulseReader) (value : ℤ) : PulseReader :=
  let word := BitVec.ofInt 32 value
  ⟨s.pulses ++ [if s.inSpace then word ||| IG_PULSE_BIT else word], !s.inSpace⟩

def readLine (s : PulseReader) (line : PulseLine) : Option PulseReader :=
  match line with
  | .pulse value => if !s.inSpace then s.combine value else some (s.append value)
  | .space value =>
      if s.pulses.length = 0 then some s
      else if s.inSpace then s.combine value
      else some (s.append value)
  | .bare value => some (s.append value)
  | .blank | .unparsable => some s

/-- A trailing space is trimmed. -/
def count (s : PulseReader) : ℤ := if s.inSpace then s.pulses.length - 1 else s.pulses.length

end PulseReader

/-- The count and the array; `input` is `none` where the file can't be opened. -/
def iguanaReadPulseFile (input : Option (List Byte)) : Option (ℤ × List (BitVec 32)) :=
  match input with
  | none => some (-1, [])
  | some text =>
      match readLines text.length text with
      | [] => some (-1, [])
      | lines => ((lines.map parseLine).foldlM PulseReader.readLine PulseReader.start).map
          (fun s => (s.count, s.pulses))

/-! ### What a file says -/

/-- The lines of a text, with their newlines. -/
def textLines : List Byte → List (List Byte)
  | [] => []
  | b :: rest =>
      if b = 10 then [b] :: textLines rest
      else match textLines rest with
        | [] => [[b]]
        | line :: lines => (b :: line) :: lines

def PulseLine.value : PulseLine → Option ℤ
  | .pulse value | .space value | .bare value => some value
  | .blank | .unparsable => none

/-- The numbers, each with whether it is a pulse; a bare one has not the kind of the one before. -/
def withKinds : Bool → List PulseLine → List (Bool × ℤ)
  | _, [] => []
  | _, .pulse value :: lines => (true, value) :: withKinds true lines
  | _, .space value :: lines => (false, value) :: withKinds false lines
  | pulse, .bare value :: lines => (!pulse, value) :: withKinds (!pulse) lines
  | pulse, .blank :: lines => withKinds pulse lines
  | pulse, .unparsable :: lines => withKinds pulse lines

/-- The entry for numbers of one kind. -/
def runEntry (run : List (Bool × ℤ)) : Bool × ℤ := (run.head?.any (·.1), (run.map (·.2)).sum)

/-- Consecutive numbers of one kind are one entry, and there are no leading spaces. -/
def mergedEntries (lines : List PulseLine) : List (Bool × ℤ) :=
  (((withKinds false lines).dropWhile (fun e => !e.1)).splitBy (KindRuns.sameKind (·.1))).map
    runEntry

/-- One trailing space is dropped. -/
def trimSpace (entries : List (Bool × ℤ)) : List (Bool × ℤ) :=
  if entries.getLast?.any (fun e => !e.1) then entries.dropLast else entries

/-- The entries of a text. -/
def fileEntries (text : List Byte) : List (Bool × ℤ) :=
  trimSpace (mergedEntries ((textLines text).map parseLine))

/-- The result for these entries: -1 without an entry, or an odd count of words that alternate,
beginning with a pulse, and hold the durations beside the bit. -/
def ReadsEntries (entries : List (Bool × ℤ)) (count : ℤ) (pulses : List (BitVec 32)) : Prop :=
  (count = -1 ∧ entries = []) ∨
    (count = entries.length ∧ count % 2 = 1 ∧
      ∀ i (h : i < entries.length), ∃ word, pulses[i]? = some word ∧
        (entries[i]).2 ≤ IG_PULSE_MASK.toNat ∧
        (word.toNat : ℤ) = (if i % 2 = 0 then IG_PULSE_BIT.toNat else 0) + (entries[i]).2)

/-! ### `fgets` -/

theorem textLines_eq_nil {text : List Byte} (h : textLines text = []) : text = [] := by
  cases text with
  | nil => rfl
  | cons b rest =>
    rw [textLines] at h
    split at h
    · cases h
    · split at h <;> cases h

/-- `fgets` takes the first line if it fits. -/
theorem fgets_line : ∀ (text : List Byte) (n : ℕ) (line : List Byte) (lines : List (List Byte)),
    textLines text = line :: lines → line.length ≤ n →
      ∃ rest, fgets n text = (line, rest) ∧ textLines rest = lines ∧ rest.length < text.length
  | [], _, _, _, h, _ => absurd h (List.cons_ne_nil _ _).symm
  | b :: rest, n, line, lines, h, hfits => by
      rw [textLines] at h
      split at h
      · -- the newline
        rename_i hb
        obtain ⟨rfl, rfl⟩ := List.cons.inj h
        rw [List.length_singleton] at hfits
        obtain ⟨m, rfl⟩ := Nat.exists_eq_add_of_le' hfits
        exact ⟨rest, by rw [fgets, if_pos hb], rfl, Nat.lt_succ_self _⟩
      · rename_i hb
        split at h
        · -- the last line, without a newline
          rename_i hrest
          obtain ⟨rfl, rfl⟩ := List.cons.inj h
          obtain rfl := textLines_eq_nil hrest
          rw [List.length_singleton] at hfits
          obtain ⟨m, rfl⟩ := Nat.exists_eq_add_of_le' hfits
          refine ⟨[], ?_, rfl, Nat.lt_succ_self _⟩
          rw [fgets, if_neg hb]
          cases m <;> rfl
        · rename_i line' lines' hrest
          obtain ⟨rfl, rfl⟩ := List.cons.inj h
          rw [List.length_cons] at hfits
          obtain ⟨m, rfl⟩ := Nat.exists_eq_add_of_le' (Nat.le_of_add_left_le hfits)
          obtain ⟨rest', hread, hlines, hlt⟩ := fgets_line rest m line' lines' hrest (by omega)
          refine ⟨rest', ?_, hlines, ?_⟩
          · rw [fgets, if_neg hb, hread]
          · rw [List.length_cons]
            omega

theorem readLines_eq : ∀ (fuel : ℕ) (text : List Byte), text.length ≤ fuel →
    (∀ line ∈ textLines text, line.length ≤ MAX_LINE - 1) → readLines fuel text = textLines text
  | 0, text, hfuel, _ => by
      obtain rfl := List.length_eq_zero_iff.mp (Nat.le_zero.mp hfuel)
      rfl
  | fuel + 1, text, hfuel, hfits => by
      rw [readLines]
      cases hlines : textLines text with
      | nil => rw [if_pos (textLines_eq_nil hlines)]
      | cons line lines =>
        rw [hlines] at hfits
        obtain ⟨rest, hread, hrest, hlt⟩ :=
          fgets_line text _ line lines hlines (hfits line (List.mem_cons_self ..))
        have hne : text ≠ [] := by
          rintro rfl
          cases hlines
        rw [if_neg hne, hread]
        simp only
        rw [readLines_eq fuel rest (by omega) (by
          rw [hrest]
          exact fun l hl => hfits l (List.mem_cons_of_mem _ hl)), hrest]

/-! ### The entries -/

/-- The word of an entry, as the additions leave it. -/
def entryWord (e : Bool × ℤ) : BitVec 32 :=
  BitVec.ofInt 32 e.2 + if e.1 then IG_PULSE_BIT else 0

def addNumber (e number : Bool × ℤ) : Bool × ℤ := (e.1, e.2 + number.2)

/-- The entries from an open one on. -/
def entriesFrom (e : Bool × ℤ) (numbers : List (Bool × ℤ)) : List (Bool × ℤ) :=
  KindRuns.accumulate (·.1) id addNumber e.1 e numbers

/-- A number that a line can have without reaching the bit. -/
def InRange (value : ℤ) : Prop := 0 ≤ value ∧ value ≤ IG_PULSE_MASK.toNat

theorem ofInt_toNat {value : ℤ} (h : InRange value) :
    ((BitVec.ofInt 32 value).toNat : ℤ) = value := by
  have hmask : IG_PULSE_MASK.toNat = 16777215 := rfl
  obtain ⟨hlow, hhigh⟩ := h
  rw [BitVec.toNat_ofInt]
  omega

/-- A number in range has not the bit, so that setting it adds it. -/
theorem append_word {value : ℤ} (h : InRange value) :
    BitVec.ofInt 32 value ||| IG_PULSE_BIT = entryWord (true, value) := by
  have hmask : IG_PULSE_MASK.toNat = 16777215 := rfl
  have hbit : IG_PULSE_BIT.toNat = 16777216 := rfl
  have hnat := ofInt_toNat h
  obtain ⟨hlow, hhigh⟩ := h
  apply BitVec.eq_of_toNat_eq
  rw [or_pulseBit (by omega), entryWord, BitVec.toNat_add, if_pos rfl, hbit]
  simp only
  omega

theorem append_entry (pulses : List (BitVec 32)) (pulse : Bool) {value : ℤ} (h : InRange value) :
    (⟨pulses, !pulse⟩ : PulseReader).append value =
      ⟨pulses ++ [entryWord (!pulse, value)], pulse⟩ := by
  cases pulse with
  | false =>
    change (⟨pulses ++ [BitVec.ofInt 32 value ||| IG_PULSE_BIT], false⟩ : PulseReader) = _
    rw [append_word h]
    rfl
  | true =>
    have hword : entryWord (false, value) = BitVec.ofInt 32 value := BitVec.add_zero _
    rw [PulseReader.append]
    simp only [Bool.not_true, Bool.false_eq_true, if_false, hword, Bool.not_false]

theorem combine_entry (pulses : List (BitVec 32)) (inSpace : Bool) (e : Bool × ℤ) (value : ℤ) :
    (⟨pulses ++ [entryWord e], inSpace⟩ : PulseReader).combine value =
      some ⟨pulses ++ [entryWord (addNumber e (e.1, value))], inSpace⟩ := by
  have hword : entryWord e + BitVec.ofInt 32 value = entryWord (addNumber e (e.1, value)) := by
    simp only [entryWord, addNumber, BitVec.ofInt_add]
    ac_rfl
  rw [PulseReader.combine, List.getLast?_concat, Option.map_some, List.dropLast_concat, hword]

theorem entriesFrom_same (e : Bool × ℤ) (value : ℤ) (numbers : List (Bool × ℤ)) :
    entriesFrom e ((e.1, value) :: numbers) = entriesFrom (addNumber e (e.1, value)) numbers := by
  rw [entriesFrom, KindRuns.accumulate, if_pos rfl]
  rfl

theorem entriesFrom_other (e : Bool × ℤ) (value : ℤ) (numbers : List (Bool × ℤ)) :
    entriesFrom e ((!e.1, value) :: numbers) = e :: entriesFrom (!e.1, value) numbers := by
  rw [entriesFrom, KindRuns.accumulate, if_neg (by simp)]
  rfl

/-- The reader behind all its lines: the words of the entries, and the kind of the last one. -/
structure PulseReader.Holds (s : PulseReader) (closed : List (BitVec 32))
    (entries : List (Bool × ℤ)) : Prop where
  pulses : s.pulses = closed ++ entries.map entryWord
  last : ∃ es e, entries = es ++ [e] ∧ s.inSpace = !e.1

theorem PulseReader.Holds.cons {s : PulseReader} {closed : List (BitVec 32)} {e : Bool × ℤ}
    {entries : List (Bool × ℤ)} (h : s.Holds (closed ++ [entryWord e]) entries) :
    s.Holds closed (e :: entries) := by
  obtain ⟨es, e', rfl, hspace⟩ := h.last
  refine ⟨?_, e :: es, e', rfl, hspace⟩
  rw [h.pulses, List.map_cons, List.append_assoc]
  rfl

/-- **The loop** from an open entry on. -/
theorem readLines_entries : ∀ (lines : List PulseLine) (closed : List (BitVec 32)) (e : Bool × ℤ),
    (∀ line ∈ lines, ∀ value ∈ line.value, InRange value) →
      ∃ s, lines.foldlM PulseReader.readLine ⟨closed ++ [entryWord e], !e.1⟩ = some s ∧
        s.Holds closed (entriesFrom e (withKinds e.1 lines))
  | [], _, e, _ => ⟨_, rfl, rfl, [], e, rfl, rfl⟩
  | line :: lines, closed, e, hvalues => by
      have hrest := fun l hl => hvalues l (List.mem_cons_of_mem _ hl)
      have hvalue := hvalues line (List.mem_cons_self ..)
      have hne : ¬(closed ++ [entryWord e]).length = 0 := by simp
      -- a number of the kind of the entry, and one of the other kind
      have hsame (value : ℤ) :
          ∃ s, ((⟨closed ++ [entryWord e], !e.1⟩ : PulseReader).combine value).bind
              (fun s => lines.foldlM PulseReader.readLine s) = some s ∧
            s.Holds closed (entriesFrom e ((e.1, value) :: withKinds e.1 lines)) := by
        rw [combine_entry, Option.bind_some, entriesFrom_same]
        exact readLines_entries lines closed (addNumber e (e.1, value)) hrest
      have hother (value : ℤ) (h : InRange value) :
          ∃ s, lines.foldlM PulseReader.readLine
              ((⟨closed ++ [entryWord e], !e.1⟩ : PulseReader).append value) = some s ∧
            s.Holds closed (entriesFrom e ((!e.1, value) :: withKinds (!e.1) lines)) := by
        obtain ⟨s, hrun, hs⟩ :=
          readLines_entries lines (closed ++ [entryWord e]) (!e.1, value) hrest
        rw [append_entry _ _ h, entriesFrom_other]
        simp only [Bool.not_not] at hrun
        exact ⟨s, hrun, hs.cons⟩
      rw [List.foldlM_cons]
      cases line with
      | blank | unparsable => exact readLines_entries lines closed e hrest
      | bare value => exact hother value (hvalue value rfl)
      | pulse value =>
        obtain ⟨pulse, total⟩ := e
        cases pulse with
        | false => exact hother value (hvalue value rfl)
        | true => exact hsame value
      | space value =>
        obtain ⟨pulse, total⟩ := e
        cases pulse with
        | false =>
          rw [PulseReader.readLine, if_neg hne]
          exact hsame value
        | true =>
          rw [PulseReader.readLine, if_neg hne]
          exact hother value (hvalue value rfl)

/-- The entries before the trailing space is dropped; a space in front is no entry. -/
def allEntries (numbers : List (Bool × ℤ)) : List (Bool × ℤ) :=
  match numbers.dropWhile (fun e => !e.1) with
  | [] => []
  | e :: rest => entriesFrom e rest

/-- **The loop** from its start. -/
theorem readLines_start : ∀ (lines : List PulseLine),
    (∀ line ∈ lines, ∀ value ∈ line.value, InRange value) →
      ∃ s, lines.foldlM PulseReader.readLine PulseReader.start = some s ∧
        (allEntries (withKinds false lines) = [] ∧ s = .start ∨
          s.Holds [] (allEntries (withKinds false lines)))
  | [], _ => ⟨.start, rfl, .inl ⟨rfl, rfl⟩⟩
  | line :: lines, hvalues => by
      have hrest := fun l hl => hvalues l (List.mem_cons_of_mem _ hl)
      have hvalue := hvalues line (List.mem_cons_self ..)
      have hskip := readLines_start lines hrest
      have hfirst (value : ℤ) (h : InRange value) :
          ∃ s, lines.foldlM PulseReader.readLine (PulseReader.start.append value) = some s ∧
            s.Holds [] (allEntries ((true, value) :: withKinds true lines)) := by
        have happend := append_entry [] false h
        obtain ⟨s, hrun, hs⟩ := readLines_entries lines [] (true, value) hrest
        refine ⟨s, ?_, hs⟩
        rw [PulseReader.start, show true = !false from rfl, happend]
        exact hrun
      rw [List.foldlM_cons]
      cases line with
      | blank | unparsable | space value => exact hskip
      | pulse value | bare value =>
        obtain ⟨s, hrun, hs⟩ := hfirst value (hvalue value rfl)
        exact ⟨s, hrun, .inr hs⟩

/-! ### The result -/

theorem mergedEntries_eq (lines : List PulseLine) :
    mergedEntries lines = allEntries (withKinds false lines) := by
  rw [mergedEntries, allEntries]
  cases (withKinds false lines).dropWhile (fun e => !e.1) with
  | nil => rfl
  | cons e rest =>
    refine (KindRuns.accumulate_start ?_ ?_ e rest).symm
    · intro a
      simp [runEntry]
    · intro a g b
      simp [runEntry, addNumber, Int.add_assoc]

/-- The entries alternate, from the kind of the first one on. -/
theorem entriesFrom_isChain (e : Bool × ℤ) (numbers : List (Bool × ℤ)) :
    (entriesFrom e numbers).IsChain (fun e e' => e.1 ≠ e'.1) ∧
      ∀ e' ∈ (entriesFrom e numbers).head?, e'.1 = e.1 :=
  @KindRuns.accumulate_isChain (Bool × ℤ) Bool (Bool × ℤ) _ (·.1) id addNumber (fun _ => True) (·.1)
    (fun _ => ⟨trivial, rfl⟩) (fun _ _ _ => ⟨trivial, rfl⟩) numbers e trivial

theorem allEntries_isChain (numbers : List (Bool × ℤ)) :
    (allEntries numbers).IsChain (fun e e' => e.1 ≠ e'.1) ∧
      ∀ e ∈ (allEntries numbers).head?, e.1 = true := by
  have hhead := List.head?_dropWhile_not (fun e : Bool × ℤ => !e.1) numbers
  rw [allEntries]
  cases hdrop : numbers.dropWhile (fun e => !e.1) with
  | nil =>
    refine ⟨List.isChain_nil, ?_⟩
    intro e he
    cases he
  | cons e rest =>
    rw [hdrop, List.head?_cons] at hhead
    have hpulse : e.1 = true := by simpa using hhead
    obtain ⟨hchain, hfirst⟩ := entriesFrom_isChain e rest
    rw [hpulse] at hfirst
    exact ⟨hchain, hfirst⟩

/-- Entries that alternate have their kinds by parity. -/
theorem kind_parity : ∀ (es : List (Bool × ℤ)) (k : Bool), es.IsChain (fun e e' => e.1 ≠ e'.1) →
    (∀ e ∈ es.head?, e.1 = k) → ∀ i (h : i < es.length), (es[i]).1 = if i % 2 = 0 then k else !k
  | [], _, _, _, _, h => absurd h (Nat.not_lt_zero _)
  | e :: es, k, hchain, hhead, 0, _ => hhead e rfl
  | e :: es, k, hchain, hhead, i + 1, h => by
      obtain ⟨hnext, hrest⟩ := List.isChain_cons.mp hchain
      have hk : e.1 = k := hhead e rfl
      have ih := kind_parity es (!k) hrest (by
        intro e' he'
        have hne := hnext e' he'
        rw [hk] at hne
        cases k <;> cases he : e'.1 <;> simp_all) i (Nat.lt_of_succ_lt_succ h)
      rw [List.getElem_cons_succ, ih]
      obtain heven | hodd := Nat.mod_two_eq_zero_or_one i
      · rw [if_pos heven, if_neg (by omega)]
      · rw [if_neg (by omega), if_pos (by omega), Bool.not_not]

theorem withKinds_inRange : ∀ (lines : List PulseLine) (pulse : Bool),
    (∀ line ∈ lines, ∀ value ∈ line.value, InRange value) →
      ∀ e ∈ withKinds pulse lines, InRange e.2
  | [], _, _, _, he => absurd he List.not_mem_nil
  | line :: lines, pulse, hvalues, e, he => by
      have ih (p : Bool) := withKinds_inRange lines p
        (fun l hl => hvalues l (List.mem_cons_of_mem _ hl)) e
      have hvalue := hvalues line (List.mem_cons_self ..)
      cases line with
      | blank | unparsable => exact ih pulse he
      | pulse value | space value | bare value =>
        obtain rfl | he := List.mem_cons.mp he
        · exact hvalue value rfl
        · exact ih _ he

theorem mergedEntries_nonneg {lines : List PulseLine}
    (hvalues : ∀ line ∈ lines, ∀ value ∈ line.value, InRange value) :
    ∀ e ∈ mergedEntries lines, 0 ≤ e.2 := by
  intro e he
  obtain ⟨run, hrun, rfl⟩ := List.mem_map.mp he
  apply List.sum_nonneg
  intro value hvalue
  obtain ⟨number, hnumber, rfl⟩ := List.mem_map.mp hvalue
  have hmem : number ∈ (withKinds false lines).dropWhile (fun e => !e.1) := by
    rw [← List.flatten_splitBy (KindRuns.sameKind (·.1))
      ((withKinds false lines).dropWhile (fun e => !e.1))]
    exact List.mem_flatten.mpr ⟨run, hrun, hnumber⟩
  exact (withKinds_inRange lines false hvalues number ((List.dropWhile_sublist _).mem hmem)).1

theorem entryWord_toNat {e : Bool × ℤ} (h : InRange e.2) :
    ((entryWord e).toNat : ℤ) = (if e.1 then IG_PULSE_BIT.toNat else 0) + e.2 := by
  have hmask : IG_PULSE_MASK.toNat = 16777215 := rfl
  have hbit : IG_PULSE_BIT.toNat = 16777216 := rfl
  have hnat := ofInt_toNat h
  obtain ⟨hlow, hhigh⟩ := h
  obtain ⟨pulse, total⟩ := e
  simp only at hnat hlow hhigh
  cases pulse with
  | false =>
    have hword : entryWord (false, total) = BitVec.ofInt 32 total := BitVec.add_zero _
    rw [hword, hnat]
    simp
  | true =>
    rw [entryWord, BitVec.toNat_add, if_pos rfl, if_pos rfl, hbit]
    simp only
    omega

/-- The last entry is dropped if it is a space; then there is an odd number of them. -/
theorem trimSpace_append {es : List (Bool × ℤ)} {e : Bool × ℤ}
    (hchain : (es ++ [e]).IsChain (fun e e' => e.1 ≠ e'.1))
    (hhead : ∀ e' ∈ (es ++ [e]).head?, e'.1 = true) :
    (trimSpace (es ++ [e])).length = es.length + (if e.1 then 1 else 0) ∧
      (trimSpace (es ++ [e])).length % 2 = 1 ∧
      ∃ rest, es ++ [e] = trimSpace (es ++ [e]) ++ rest := by
  have hlast := kind_parity _ true hchain hhead es.length (by simp)
  rw [List.getElem_concat_length rfl] at hlast
  rw [trimSpace, List.getLast?_concat, List.dropLast_concat]
  obtain ⟨pulse, total⟩ := e
  cases pulse with
  | false =>
    simp only [Option.any_some, Bool.not_false, if_true, Bool.false_eq_true, if_false,
      Nat.add_zero, true_and]
    refine ⟨?_, _, rfl⟩
    by_contra hodd
    rw [if_pos (by omega)] at hlast
    cases hlast
  | true =>
    simp only [Option.any_some, Bool.not_true, Bool.false_eq_true, if_false, if_true,
      List.length_append, List.length_singleton, true_and]
    refine ⟨?_, [], (List.append_nil _).symm⟩
    by_contra heven
    rw [if_neg (by omega)] at hlast
    cases hlast

/-- **Pulse files are read** exactly when no entry but a trailing space has a duration that is too
large for the mask. -/
theorem readPulseFile_iff (text : List Byte)
    (hlines : ∀ line ∈ textLines text, line.length ≤ MAX_LINE - 1)
    (hvalues : ∀ line ∈ textLines text, ∀ value ∈ (parseLine line).value,
      0 ≤ value ∧ value ≤ IG_PULSE_MASK.toNat) :
    (∃ count pulses, iguanaReadPulseFile (some text) = some (count, pulses) ∧
      ReadsEntries (fileEntries text) count pulses) ↔
    ∀ e ∈ fileEntries text, e.2 ≤ IG_PULSE_MASK.toNat := by
  have hinRange : ∀ line ∈ (textLines text).map parseLine, ∀ value ∈ line.value, InRange value := by
    intro line hline
    obtain ⟨buffer, hbuffer, rfl⟩ := List.mem_map.mp hline
    exact hvalues buffer hbuffer
  have hread := readLines_eq text.length text (Nat.le_refl _) hlines
  constructor
  · rintro ⟨count, pulses, -, ⟨-, hnil⟩ | ⟨-, -, hentries⟩⟩ e he
    · rw [hnil] at he
      exact absurd he List.not_mem_nil
    · obtain ⟨i, hi, rfl⟩ := List.mem_iff_getElem.mp he
      obtain ⟨word, -, hle, -⟩ := hentries i hi
      exact hle
  · intro hfits
    obtain ⟨s, hrun, hs⟩ := readLines_start _ hinRange
    have hmerged := mergedEntries_eq ((textLines text).map parseLine)
    have hnonneg := mergedEntries_nonneg hinRange
    rw [← hmerged] at hs
    have hresult : iguanaReadPulseFile (some text) = some (s.count, s.pulses) ∨
        (iguanaReadPulseFile (some text) = some (-1, []) ∧ fileEntries text = []) := by
      rw [iguanaReadPulseFile, hread, fileEntries]
      cases hcases : textLines text with
      | nil => exact .inr ⟨rfl, rfl⟩
      | cons line lines =>
        rw [hcases] at hrun
        refine .inl ?_
        simp only [hrun, Option.map_some]
    obtain hresult | ⟨hresult, hnil⟩ := hresult
    swap
    · exact ⟨-1, [], hresult, .inl ⟨rfl, hnil⟩⟩
    refine ⟨s.count, s.pulses, hresult, ?_⟩
    obtain ⟨hnil, rfl⟩ | hholds := hs
    · refine .inl ⟨rfl, ?_⟩
      rw [fileEntries, hnil]
      rfl
    · obtain ⟨es, e, hes, hspace⟩ := hholds.last
      obtain ⟨hchain, hhead⟩ := allEntries_isChain (withKinds false ((textLines text).map parseLine))
      rw [← hmerged, hes] at hchain hhead
      obtain ⟨hlength, hodd, rest, hrest⟩ := trimSpace_append hchain hhead
      have htrim : fileEntries text = trimSpace (es ++ [e]) := by rw [fileEntries, hes]
      have hcount : s.count = (fileEntries text).length := by
        rw [PulseReader.count, hspace, hholds.pulses, hes, htrim, hlength]
        cases e.1 <;> simp
      refine .inr ⟨hcount, ?_, ?_⟩
      · rw [hcount, htrim]
        omega
      · intro i hi
        have hlt : i < (es ++ [e]).length := by
          rw [htrim] at hi
          rw [hrest, List.length_append]
          omega
        have hget : (es ++ [e])[i] = (fileEntries text)[i] := by
          apply Option.some.inj
          rw [← List.getElem?_eq_getElem, ← List.getElem?_eq_getElem, hrest, ← htrim,
            List.getElem?_append_left hi]
        have hmem : (es ++ [e])[i] ∈ mergedEntries ((textLines text).map parseLine) := by
          rw [hes]
          exact List.getElem_mem hlt
        have hle := hfits _ (List.getElem_mem hi)
        refine ⟨entryWord (es ++ [e])[i], ?_, ?_, ?_⟩
        · rw [hholds.pulses, hes, List.nil_append, List.getElem?_map, List.getElem?_eq_getElem hlt]
          rfl
        · exact hle
        · rw [← hget] at hle ⊢
          rw [entryWord_toNat ⟨hnonneg _ hmem, hle⟩, kind_parity _ true hchain hhead i hlt]
          split <;> rfl

/-- A comment, a leading space, labelled and bare numbers, and a trailing space. -/
def mixedFile : List Byte :=
  ascii "# a signal\nspace 5\n pulse 100\npulse: 20\nspace 30\n\n7\nbogus\nspace 9 # end\n"

theorem readPulseFile_iff_mixed :
    fileEntries mixedFile = [(true, 120), (false, 30), (true, 7)] ∧
      ∃ count pulses, iguanaReadPulseFile (some mixedFile) = some (count, pulses) ∧
        ReadsEntries (fileEntries mixedFile) count pulses :=
  ⟨by decide +kernel,
    (readPulseFile_iff mixedFile (by decide +kernel) (by decide +kernel)).mpr (by decide +kernel)⟩

/-- Two pulses whose sum is one too large. -/
def longPulse : List Byte := ascii "pulse 16777215\npulse 1\n"

/-- The entry is no pulse any more. -/
theorem pulse_bit_lost :
    (∀ line ∈ textLines longPulse, line.length ≤ MAX_LINE - 1) ∧
      (∀ line ∈ textLines longPulse, ∀ value ∈ (parseLine line).value,
        0 ≤ value ∧ value ≤ IG_PULSE_MASK.toNat) ∧
      iguanaReadPulseFile (some longPulse) = some (1, [0x02000000]) ∧
      ¬∃ count pulses, iguanaReadPulseFile (some longPulse) = some (count, pulses) ∧
        ReadsEntries (fileEntries longPulse) count pulses := by
  have hread : iguanaReadPulseFile (some longPulse) = some (1, [0x02000000]) := by decide +kernel
  have hentries : fileEntries longPulse = [(true, 16777216)] := by decide +kernel
  refine ⟨by decide +kernel, by decide +kernel, hread, ?_⟩
  rintro ⟨count, pulses, -, ⟨-, hnil⟩ | ⟨-, -, hholds⟩⟩
  · rw [hentries] at hnil
    cases hnil
  · rw [hentries] at hholds
    obtain ⟨word, -, hle, -⟩ := hholds 0 (by decide)
    revert hle
    decide

end IguanaIR
