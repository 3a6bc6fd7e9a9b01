import IguanaIR.HexText
import IguanaIR.Reflasher

/-! # Hex files

`readPages`, `appendPage` and the preparing part of `writeHexFile` of the `iguanaIR-reflasher`
script.  A file comes from the compiler, in records of one page that a record for address 0 ends,
or from the programmer, in lines of 16 bytes; the two may be mixed.

An exception, and the message that ends the script, is `none`.  A file is the list of its lines,
each with the blanks behind it, and holds ASCII characters only. -/

namespace IguanaIR

open Firmware HexText

/-! ### Reading -/

/-- A page as it was read.  A page that the programmer's format starts in its middle has no
start. -/
structure HexPage where
  start : Option ℤ
  bytes : List (List Char)
deriving DecidableEq, Repr

/-- A page of halts is not kept. -/
def appendPage (start : Option ℤ) (page : List (List Char)) (pages : List HexPage) :
    List HexPage :=
  if page.any (· != ['3', '0']) then pages ++ [⟨start, page⟩] else pages

structure HexScan where
  lineNum : ℕ
  start : Option ℤ
  page : List (List Char)
  pages : List HexPage
deriving DecidableEq, Repr

namespace HexScan

def initial : HexScan := ⟨0, none, [], []⟩

/-- The digits two by two. -/
def bytePairs : List Char → List (List Char)
  | a :: b :: rest => [a, b] :: bytePairs rest
  | _ => []

/-- Parse .hex files from the compiler; true for the `break`. -/
def compilerLine (s : HexScan) (line : List Char) : Option (HexScan × Bool) := do
  let address ← int16 ((line.drop 3).take 4)
  if address = 0 ∧ s.lineNum ≠ 1 then some (s, true)
  else
    let bytes := bytePairs ((line.take (line.length - 2)).drop 9)
    let pages := appendPage (some address) (bytes.take 64) s.pages
    let pages := appendPage (some (address + 64)) (bytes.drop 64) pages
    if (line.drop 7).take 2 ≠ ['0', '0'] then none else some ({ s with pages := pages }, false)

/-- Parse the output of the read command from the programmer. -/
def programmerLine (s : HexScan) (line : List Char) : Option HexScan :=
  match splitWords line with
  | [] => some s
  | first :: bytes =>
      if bytes.length ≠ 16 then some s
      else (int16 first.dropLast).map (fun address =>
        if address % 64 = 0 then
          -- save any old page, and prepare for the next page
          { s with pages := appendPage s.start s.page s.pages, start := some address, page := bytes }
        else { s with page := s.page ++ bytes })

def readLine (s : HexScan) (line : List Char) : Option (HexScan × Bool) :=
  let line := strip line
  let s := { s with lineNum := s.lineNum + 1 }
  match line with
  | [] => some (s, false)
  | c :: _ => if c = ':' then s.compilerLine line else (s.programmerLine line).map (·, false)

def readLines : HexScan → List (List Char) → Option HexScan
  | s, [] => some s
  | s, line :: rest => do
      let (s, stop) ← s.readLine line
      if stop then some s else readLines s rest

/-- Save the last page. -/
def finish (s : HexScan) : List HexPage :=
  if s.start = none then s.pages else appendPage s.start s.page s.pages

end HexScan

def readPages (input : List (List Char)) : Option (List HexPage) :=
  (HexScan.initial.readLines input).map HexScan.finish

/-! ### Preparing what is written -/

/-- `int(byte, 16)`, in a `bytearray`. -/
def readByte (s : List Char) : Option Byte := do
  let n ← int16 s
  if 0 ≤ n then bytearray n.toNat else none

/-- The page with its numbers. -/
def HexPage.toPage (page : HexPage) : Option Page := do
  let start ← page.start
  let bytes ← page.bytes.mapM readByte
  if 0 ≤ start then some ⟨start.toNat, bytes⟩ else none

/-- `blanks.remove(page['start'] // 64)`. -/
def removeBlank (blanks : List ℕ) (page : HexPage) : Option (List ℕ) := do
  let start ← page.start
  if 0 ≤ start ∧ (start / 64).toNat ∈ blanks then some (blanks.erase (start / 64).toNat) else none

/-- The byte of the features, if this is its page. -/
def placeFeature (setFeatures : Byte) (page : HexPage) : Option HexPage :=
  if page.start = some 0xC00 then
    if 61 < page.bytes.length then
      some { page with bytes := page.bytes.set 61 (render 2 setFeatures.toNat) }
    else none
  else some page

def blankPage (page : ℕ) : HexPage := ⟨some (page * 64), List.replicate 64 ['3', '0']⟩

def preparedPages (UNSAFE : Bool) (pages : List HexPage) : Option (List PreparedPage) := do
  let pages ← pages.mapM HexPage.toPage
  preparePages UNSAFE pages

def findBlanks (blankPages : Bool) (pages : List HexPage) : Option (List ℕ) :=
  if blankPages then pages.foldlM removeBlank (List.range 128) else some []

/-- Place the features if necessary (and possible). -/
def placeFeatures (setFeatures : Byte) (version : ℕ) (pages : List HexPage) :
    Option (List HexPage) :=
  if setFeatures ≠ 0 ∧ (0x0101 ≤ version ∨ version = 0) then pages.mapM (placeFeature setFeatures)
  else some pages

/-- The pages that are written, in this order, and the blank ones that follow them. -/
def writeHexFile (UNSAFE blankPages : Bool) (setFeatures : Byte) (version : ℕ)
    (input : List (List Char)) : Option (List PreparedPage × List PreparedPage) := do
  let pages ← readPages input
  let blanks ← findBlanks blankPages pages
  let pages ← placeFeatures setFeatures version pages
  let code ← preparedPages UNSAFE pages
  let blank ← preparedPages UNSAFE (blanks.map blankPage)
  some (code, blank)

/-! ### What a file says -/

/-- A page of an image: its number and its bytes. -/
structure ImagePage where
  index : ℕ
  bytes : List Byte
deriving DecidableEq, Repr

/-- The pages of the flash that a file describes, in order. -/
structure Image where
  pages : List ImagePage
  index_lt : ∀ p ∈ pages, p.index < 128
  length_eq : ∀ p ∈ pages, p.bytes.length = FLASH_BLOCK_SIZE
  sorted : pages.Pairwise (fun p q => p.index < q.index)

namespace ImagePage

def hexBytes (p : ImagePage) : List (List Char) := p.bytes.map (fun b => render 2 b.toNat)

/-- What `readPages` makes of it. -/
def toHex (p : ImagePage) : HexPage := ⟨some (64 * p.index : ℕ), p.hexBytes⟩

/-- Is there anything but halts? -/
def hasCode (p : ImagePage) : Bool := p.bytes.any (· != 0x30)

/-- The checksum of a record: with it, all its bytes add up to 0. -/
def recordSum (p : ImagePage) : ℕ :=
  let address := 64 * p.index
  (256 - (64 + address / 256 + address % 256 + (p.bytes.map (·.toNat)).sum) % 256) % 256

/-- The record of the compiler. -/
def record (p : ImagePage) : List Char :=
  ':' :: render 2 64 ++ render 4 (64 * p.index) ++ render 2 0 ++ p.hexBytes.flatten ++
    render 2 p.recordSum

/-- The words of a line. -/
def lineWords (p : ImagePage) (i : ℕ) : List (List Char) := (p.hexBytes.drop (16 * i)).take 16

/-- The four lines of the programmer. -/
def readout (p : ImagePage) : List (List Char) :=
  (List.range 4).map (fun i => render 4 (64 * p.index + 16 * i) ++ [':'] ++
    (p.lineWords i).flatMap (fun w => ' ' :: w))

end ImagePage

/-- The pages that are kept. -/
def Image.code (image : Image) : List ImagePage := image.pages.filter (·.hasCode)

/-! ### Records -/

namespace ImagePage

variable (p : ImagePage)

@[simp] theorem hexBytes_length : p.hexBytes.length = p.bytes.length := List.length_map ..

theorem length_of_mem_hexBytes {w : List Char} (h : w ∈ p.hexBytes) : w.length = 2 := by
  obtain ⟨b, -, rfl⟩ := List.mem_map.mp h
  exact render_length 2 _

theorem plain_of_mem_hexBytes {w : List Char} (h : w ∈ p.hexBytes) :
    w ≠ [] ∧ ∀ c ∈ w, isSpace c = false := by
  obtain ⟨b, -, rfl⟩ := List.mem_map.mp h
  refine ⟨fun hnil => ?_, fun c hc => (render_plain hc).1⟩
  have hlength := congrArg List.length hnil
  rw [render_length] at hlength
  cases hlength

/-- The text of a byte is "30" only for a halt. -/
theorem hexByte_ne_iff (b : Byte) : (render 2 b.toNat != ['3', '0']) = (b != 0x30) := by
  rw [Bool.eq_iff_iff, bne_iff_ne, bne_iff_ne, not_iff_not]
  constructor
  · intro h
    exact BitVec.eq_of_toNat_eq (render_inj (m := 48) b.isLt (by decide) h)
  · rintro rfl
    rfl

theorem any_hexBytes : p.hexBytes.any (· != ['3', '0']) = p.hasCode := by
  rw [hexBytes, List.any_map, hasCode]
  congr 1
  funext b
  exact hexByte_ne_iff b

/-- What becomes of a page that was read. -/
theorem appendPage_hexBytes (pages : List HexPage) :
    appendPage (some (64 * p.index : ℕ)) p.hexBytes pages =
      pages ++ (if p.hasCode then [p.toHex] else []) := by
  rw [appendPage, any_hexBytes]
  split_ifs
  · rfl
  · exact (List.append_nil _).symm

end ImagePage

namespace HexScan

theorem bytePairs_flatten {ws : List (List Char)} (h : ∀ w ∈ ws, w.length = 2) :
    bytePairs ws.flatten = ws := by
  induction ws with
  | nil => rfl
  | cons w ws ih =>
      obtain ⟨hw, hrest⟩ := List.forall_mem_cons.mp h
      match w, hw with
      | [a, b], _ =>
        rw [List.flatten_cons]
        change [a, b] :: bytePairs ws.flatten = _
        rw [ih hrest]

/-- The parts of a record. -/
theorem record_parts (p : ImagePage) :
    (p.record.drop 3).take 4 = render 4 (64 * p.index) ∧ (p.record.drop 7).take 2 = ['0', '0'] ∧
      (p.record.take (p.record.length - 2)).drop 9 = p.hexBytes.flatten := by
  refine ⟨rfl, rfl, ?_⟩
  have hlength : p.record.length - 2 = (':' :: render 2 64 ++ render 4 (64 * p.index) ++
      render 2 0 ++ p.hexBytes.flatten).length := by
    rw [ImagePage.record, List.length_append, render_length, Nat.add_sub_cancel]
  rw [hlength, ImagePage.record, List.take_left]
  rfl

/-- Nothing is stripped from a record but the end of its line. -/
theorem strip_record (p : ImagePage) {lineEnd : List Char}
    (hend : ∀ c ∈ lineEnd, isSpace c = true) : strip (p.record ++ lineEnd) = p.record := by
  apply strip_append hend
  · intro c hc
    obtain rfl : c = ':' := (Option.some.inj hc).symm
    rfl
  · intro c hc
    rw [ImagePage.record, List.getLast?_append_of_ne_nil _ (by simp [render])] at hc
    exact (render_plain (List.mem_of_getLast? hc)).1

/-- What is known behind the records of some pages. -/
def behind (lineNum : ℕ) (pages : List HexPage) : HexScan := ⟨lineNum, none, [], pages⟩

/-- The pages of records that are kept. -/
def kept (pages : List ImagePage) : List HexPage :=
  pages.flatMap (fun p => if p.hasCode then [p.toHex] else [])

/-- **A record is read** as its page. -/
theorem readLine_record {p : ImagePage} {lineEnd : List Char} (hindex : p.index < 128)
    (hlen : p.bytes.length = FLASH_BLOCK_SIZE) (hend : ∀ c ∈ lineEnd, isSpace c = true) {n : ℕ}
    (hfirst : p.index ≠ 0 ∨ n = 0) (pages : List HexPage) :
    (behind n pages).readLine (p.record ++ lineEnd) =
      some (behind (n + 1) (pages ++ if p.hasCode then [p.toHex] else []), false) := by
  obtain ⟨haddress, hpad, hbody⟩ := record_parts p
  have hread : int16 (render 4 (64 * p.index)) = some ((64 * p.index : ℕ) : ℤ) :=
    @int16_render 3 _ (by norm_num; omega)
  have hgoes : ¬(((64 * p.index : ℕ) : ℤ) = 0 ∧ n + 1 ≠ 1) := by omega
  have hpairs : bytePairs p.hexBytes.flatten = p.hexBytes :=
    bytePairs_flatten (fun w hw => p.length_of_mem_hexBytes hw)
  have hlength : p.hexBytes.length ≤ 64 := by
    rw [p.hexBytes_length, hlen]
    exact Nat.le_refl 64
  have hcompiler : (behind (n + 1) pages).compilerLine p.record =
      some (behind (n + 1) (pages ++ if p.hasCode then [p.toHex] else []), false) := by
    rw [compilerLine, haddress, hread]
    simp only [Option.bind_eq_bind, Option.bind_some, behind, if_neg hgoes, hbody, hpairs,
      List.take_of_length_le hlength, List.drop_of_length_le hlength, p.appendPage_hexBytes, hpad,
      ne_eq, not_true_eq_false, if_false]
    rfl
  unfold readLine
  rw [strip_record p hend]
  exact hcompiler

/-- Records behind the first line. -/
theorem readLines_records {pages : List ImagePage} {lineEnd : List Char}
    (hindex : ∀ p ∈ pages, p.index < 128 ∧ p.index ≠ 0)
    (hlen : ∀ p ∈ pages, p.bytes.length = FLASH_BLOCK_SIZE)
    (hend : ∀ c ∈ lineEnd, isSpace c = true) (n : ℕ) (before : List HexPage)
    (rest : List (List Char)) :
    (behind n before).readLines (pages.map (·.record ++ lineEnd) ++ rest) =
      (behind (n + pages.length) (before ++ kept pages)).readLines rest := by
  induction pages generalizing n before with
  | nil =>
      rw [kept, List.flatMap_nil, List.append_nil]
      rfl
  | cons p pages ih =>
      obtain ⟨hp, hindex⟩ := List.forall_mem_cons.mp hindex
      obtain ⟨hl, hlen⟩ := List.forall_mem_cons.mp hlen
      have hread := readLine_record hp.1 hl hend (.inl hp.2) (n := n) before
      rw [List.map_cons, List.cons_append, readLines, hread]
      simp only [Option.bind_eq_bind, Option.bind_some]
      rw [if_neg Bool.false_ne_true, ih hindex hlen, List.append_assoc, List.length_cons,
        Nat.add_right_comm, Nat.add_assoc n]
      rfl

/-- A record for address 0 ends the file where it is not the first line. -/
structure EndsRecords (trailer : List (List Char)) : Prop where
  zero : ∀ line ∈ trailer.head?, ∃ rest, strip line = ':' :: rest ∧
    int16 ((rest.drop 2).take 4) = some 0

theorem readLines_trailer {trailer : List (List Char)} (h : EndsRecords trailer) (n : ℕ)
    (pages : List HexPage) :
    ((behind (n + 1) pages).readLines trailer).map finish = some pages := by
  cases trailer with
  | nil => rfl
  | cons line lines =>
      obtain ⟨rest, hstrip, haddress⟩ := h.zero line rfl
      have haddress' : int16 (((':' :: rest).drop 3).take 4) = some 0 := haddress
      have hstop : (behind (n + 1) pages).readLine line = some (behind (n + 2) pages, true) := by
        unfold readLine
        rw [hstrip]
        dsimp only
        rw [if_pos rfl, compilerLine, haddress']
        simp only [Option.bind_eq_bind, Option.bind_some]
        rw [if_pos ⟨trivial, by simp [behind]⟩]
        rfl
      rw [readLines, hstop]
      rfl

end HexScan

/-- The file of the compiler. -/
def Image.compiled (image : Image) (lineEnd : List Char) : List (List Char) :=
  image.pages.map (·.record ++ lineEnd)

theorem Image.kept_eq (image : Image) : HexScan.kept image.pages = image.code.map (·.toHex) := by
  rw [HexScan.kept, code]
  induction image.pages with
  | nil => rfl
  | cons p pages ih =>
      rw [List.flatMap_cons, ih, List.filter_cons]
      split_ifs <;> rfl

/-- **The pages of a compiler's file** are those of the image that have code. -/
theorem readPages_compiled (image : Image) (hne : image.pages ≠ []) {lineEnd : List Char}
    (hend : ∀ c ∈ lineEnd, isSpace c = true) {trailer : List (List Char)}
    (htrailer : HexScan.EndsRecords trailer) :
    readPages (image.compiled lineEnd ++ trailer) = some (image.code.map (·.toHex)) := by
  obtain ⟨p, pages, hpages⟩ := List.exists_cons_of_ne_nil hne
  have hindex := image.index_lt
  have hlen := image.length_eq
  have hsorted := image.sorted
  rw [hpages] at hindex hlen hsorted
  obtain ⟨hp, hindex⟩ := List.forall_mem_cons.mp hindex
  obtain ⟨hl, hlen⟩ := List.forall_mem_cons.mp hlen
  obtain ⟨hlater, -⟩ := List.pairwise_cons.mp hsorted
  have hindex' : ∀ q ∈ pages, q.index < 128 ∧ q.index ≠ 0 := by
    intro q hq
    have hlt := hlater q hq
    exact ⟨hindex q hq, by omega⟩
  have hlines : HexScan.initial.readLines (image.compiled lineEnd ++ trailer) =
      (HexScan.behind (0 + 1 + pages.length) (HexScan.kept image.pages)).readLines trailer := by
    have hread := HexScan.readLine_record hp hl hend (n := 0) (.inr rfl) []
    rw [Image.compiled, hpages, List.map_cons, List.cons_append, HexScan.readLines,
      show HexScan.initial = HexScan.behind 0 [] from rfl, hread]
    simp only [Option.bind_eq_bind, Option.bind_some]
    rw [if_neg Bool.false_ne_true, HexScan.readLines_records hindex' hlen hend, HexScan.kept,
      HexScan.kept, List.flatMap_cons]
    rfl
  rw [readPages, hlines, Nat.add_comm 0 1, Nat.add_zero, Nat.add_comm 1,
    HexScan.readLines_trailer htrailer, image.kept_eq]

/-! ### The programmer's format -/

namespace ImagePage

variable (p : ImagePage)

theorem lineWords_length (hlen : p.bytes.length = FLASH_BLOCK_SIZE) {i : ℕ} (hi : i < 4) :
    (p.lineWords i).length = 16 := by
  rw [FLASH_BLOCK_SIZE] at hlen
  rw [lineWords, List.length_take, List.length_drop, p.hexBytes_length]
  omega

theorem plain_of_mem_lineWords {w : List Char} {i : ℕ} (h : w ∈ p.lineWords i) :
    w ≠ [] ∧ ∀ c ∈ w, isSpace c = false :=
  p.plain_of_mem_hexBytes (List.mem_of_mem_drop (List.mem_of_mem_take h))

/-- The lines of a page hold its bytes. -/
theorem lineWords_append (hlen : p.bytes.length = FLASH_BLOCK_SIZE) :
    ((p.lineWords 0 ++ p.lineWords 1) ++ p.lineWords 2) ++ p.lineWords 3 = p.hexBytes := by
  have hlast : ((p.hexBytes.drop 16).drop 16).drop 16 =
      (((p.hexBytes.drop 16).drop 16).drop 16).take 16 := by
    rw [List.take_of_length_le]
    rw [FLASH_BLOCK_SIZE] at hlen
    simp only [List.length_drop, p.hexBytes_length]
    omega
  have hdrop (i : ℕ) : p.hexBytes.drop (16 * (i + 1)) = (p.hexBytes.drop (16 * i)).drop 16 := by
    rw [List.drop_drop]
    congr 1
  rw [lineWords, lineWords, lineWords, lineWords, hdrop 2, hdrop 1, hdrop 0, Nat.mul_zero,
    List.drop_zero, ← hlast, List.append_assoc, List.take_append_drop, List.append_assoc,
    List.take_append_drop, List.take_append_drop]

end ImagePage

namespace HexScan

/-- What is saved when the next page starts. -/
def saved (s : HexScan) : List HexPage := appendPage s.start s.page s.pages

/-- **A line of the programmer** starts a page or goes on with one. -/
theorem readLine_readout (s : HexScan) {p : ImagePage} {lineEnd : List Char} {i : ℕ}
    (hindex : p.index < 128) (hlen : p.bytes.length = FLASH_BLOCK_SIZE)
    (hend : ∀ c ∈ lineEnd, isSpace c = true) (hi : i < 4) :
    s.readLine (render 4 (64 * p.index + 16 * i) ++ [':'] ++
        (p.lineWords i).flatMap (fun w => ' ' :: w) ++ lineEnd) =
      some (if i = 0 then ⟨s.lineNum + 1, some (64 * p.index : ℕ), p.lineWords 0, s.saved⟩
        else { s with lineNum := s.lineNum + 1, page := s.page ++ p.lineWords i }, false) := by
  obtain ⟨first, hfirst⟩ : ∃ first, first = render 4 (64 * p.index + 16 * i) ++ [':'] := ⟨_, rfl⟩
  have hplain : ∀ c ∈ first, isSpace c = false := by
    intro c hc
    rw [hfirst, List.mem_append, List.mem_singleton] at hc
    obtain hc | rfl := hc
    · exact (render_plain hc).1
    · rfl
  have hne : first ≠ [] := by
    rw [hfirst]
    exact List.append_ne_nil_of_right_ne_nil _ (List.cons_ne_nil _ _)
  have hwords : ∀ w ∈ p.lineWords i, w ≠ [] ∧ ∀ x ∈ w, isSpace x = false :=
    fun w hw => p.plain_of_mem_lineWords hw
  have haddress : int16 first.dropLast = some ((64 * p.index + 16 * i : ℕ) : ℤ) := by
    rw [hfirst, List.dropLast_concat]
    exact @int16_render 3 _ (by norm_num; omega)
  have hprogrammer (s' : HexScan) : s'.programmerLine
      (first ++ (p.lineWords i).flatMap (fun w => ' ' :: w)) =
        some (if i = 0 then { s' with
            pages := s'.saved, start := some (64 * p.index : ℕ), page := p.lineWords 0 }
          else { s' with page := s'.page ++ p.lineWords i }) := by
    rw [programmerLine, splitWords_flatMap hwords hne hplain]
    dsimp only
    rw [p.lineWords_length hlen hi, haddress]
    simp only [ne_eq, not_true_eq_false, if_false, Option.map_some]
    by_cases hzero : i = 0
    · subst hzero
      rw [if_pos (by omega), if_pos rfl]
      rfl
    · rw [if_neg (by omega), if_neg hzero]
  obtain ⟨c, rest, hcons⟩ : ∃ c rest, first ++ (p.lineWords i).flatMap (fun w => ' ' :: w) =
      c :: rest := List.exists_cons_of_ne_nil (List.append_ne_nil_of_left_ne_nil hne _)
  have hcolon : c ≠ ':' := by
    have hhead : c = digit ((64 * p.index + 16 * i) / 16 ^ 3 % 16) := by
      rw [hfirst] at hcons
      exact (List.cons.inj hcons).1.symm
    rw [hhead]
    exact fun h => (digit_plain _ (Nat.mod_lt _ (by decide))).2 (by rw [h]; decide)
  have hline : s.readLine (first ++ (p.lineWords i).flatMap (fun w => ' ' :: w) ++ lineEnd) =
      (({ s with lineNum := s.lineNum + 1 } : HexScan).programmerLine
        (first ++ (p.lineWords i).flatMap (fun w => ' ' :: w))).map (·, false) := by
    unfold readLine
    rw [strip_flatMap hwords hne hplain hend, hcons]
    dsimp only
    rw [if_neg hcolon]
  rw [← hfirst, hline, hprogrammer]
  rfl

theorem readLines_cons {s s' : HexScan} {line : List Char} (h : s.readLine line = some (s', false))
    (rest : List (List Char)) : s.readLines (line :: rest) = s'.readLines rest := by
  rw [readLines, h]
  rfl

/-- The lines of a page save the page before it. -/
theorem readLines_readout (s : HexScan) {p : ImagePage} {lineEnd : List Char}
    (hindex : p.index < 128) (hlen : p.bytes.length = FLASH_BLOCK_SIZE)
    (hend : ∀ c ∈ lineEnd, isSpace c = true) (rest : List (List Char)) :
    s.readLines (p.readout.map (· ++ lineEnd) ++ rest) =
      (⟨s.lineNum + 4, some (64 * p.index : ℕ), p.hexBytes, s.saved⟩ : HexScan).readLines rest := by
  have hread (s' : HexScan) {i : ℕ} (hi : i < 4) := readLine_readout s' hindex hlen hend hi
  have hlines : p.readout.map (· ++ lineEnd) ++ rest =
      (render 4 (64 * p.index + 16 * 0) ++ [':'] ++ (p.lineWords 0).flatMap (fun w => ' ' :: w) ++
        lineEnd) ::
      (render 4 (64 * p.index + 16 * 1) ++ [':'] ++ (p.lineWords 1).flatMap (fun w => ' ' :: w) ++
        lineEnd) ::
      (render 4 (64 * p.index + 16 * 2) ++ [':'] ++ (p.lineWords 2).flatMap (fun w => ' ' :: w) ++
        lineEnd) ::
      (render 4 (64 * p.index + 16 * 3) ++ [':'] ++ (p.lineWords 3).flatMap (fun w => ' ' :: w) ++
        lineEnd) :: rest := rfl
  rw [hlines, readLines_cons (hread _ (by decide)), readLines_cons (hread _ (by decide)),
    readLines_cons (hread _ (by decide)), readLines_cons (hread _ (by decide))]
  simp only [if_true, one_ne_zero, OfNat.ofNat_ne_zero, if_false, p.lineWords_append hlen]

/-- Before the first page there are no bytes. -/
def Fresh (s : HexScan) : Prop := s.start = none → s.page = []

theorem Fresh.finish_eq {s : HexScan} (h : s.Fresh) : s.finish = s.saved := by
  rw [finish, saved]
  split_ifs with hstart
  · rw [h hstart]
    rfl
  · rfl

theorem readLines_readouts {pages : List ImagePage} {lineEnd : List Char}
    (hindex : ∀ p ∈ pages, p.index < 128)
    (hlen : ∀ p ∈ pages, p.bytes.length = FLASH_BLOCK_SIZE)
    (hend : ∀ c ∈ lineEnd, isSpace c = true) (s : HexScan) (hs : s.Fresh) :
    (s.readLines (pages.flatMap (fun p => p.readout.map (· ++ lineEnd)))).map finish =
      some (s.saved ++ kept pages) := by
  induction pages generalizing s with
  | nil => rw [List.flatMap_nil, readLines, Option.map_some, hs.finish_eq, kept, List.flatMap_nil,
      List.append_nil]
  | cons p pages ih =>
      obtain ⟨hp, hindex⟩ := List.forall_mem_cons.mp hindex
      obtain ⟨hl, hlen⟩ := List.forall_mem_cons.mp hlen
      rw [List.flatMap_cons, readLines_readout s hp hl hend, ih hindex hlen _ (fun h => by cases h),
        saved, p.appendPage_hexBytes, List.append_assoc]
      rfl

end HexScan

/-- The file of the programmer. -/
def Image.readouts (image : Image) (lineEnd : List Char) : List (List Char) :=
  image.pages.flatMap (fun p => p.readout.map (· ++ lineEnd))

/-- **The pages of a programmer's file** are the same. -/
theorem readPages_readouts (image : Image) {lineEnd : List Char}
    (hend : ∀ c ∈ lineEnd, isSpace c = true) :
    readPages (image.readouts lineEnd) = some (image.code.map (·.toHex)) := by
  rw [readPages, Image.readouts, HexScan.readLines_readouts image.index_lt image.length_eq hend
    HexScan.initial (fun _ => rfl), image.kept_eq]
  rfl

/-! ### What is written -/

theorem readByte_render (b : Byte) : readByte (render 2 b.toNat) = some b := by
  have hread : int16 (render 2 b.toNat) = some (b.toNat : ℤ) := int16_render b.isLt
  rw [readByte, hread]
  have hbyte : bytearray b.toNat = some b := by
    rw [bytearray_some b.isLt, BitVec.ofNat_toNat, BitVec.setWidth_eq]
  simpa using hbyte

namespace ImagePage

def toPage (p : ImagePage) : Page := ⟨64 * p.index, p.bytes⟩

theorem mapM_readByte (bytes : List Byte) :
    (bytes.map (fun b => render 2 b.toNat)).mapM readByte = some bytes := by
  induction bytes with
  | nil => rfl
  | cons b bytes ih =>
      rw [List.map_cons, List.mapM_cons, readByte_render, ih]
      rfl

theorem toPage_toHex (p : ImagePage) : p.toHex.toPage = some p.toPage := by
  have hbytes : p.toHex.bytes.mapM readByte = some p.bytes := mapM_readByte p.bytes
  have hstart : p.toHex.start = some ((64 * p.index : ℕ) : ℤ) := rfl
  unfold HexPage.toPage
  rw [hstart, hbytes]
  simp only [Option.bind_eq_bind, Option.bind_some, if_pos (Int.natCast_nonneg _), Int.toNat_natCast]
  rfl

theorem toPage_fits {p : ImagePage} (hindex : p.index < 128)
    (hlen : p.bytes.length = FLASH_BLOCK_SIZE) : p.toPage.Fits := by
  refine ⟨?_, hlen⟩
  change 64 * p.index < 0x2000
  omega

/-- The page with the features. -/
def withFeatures (setFeatures : Byte) (p : ImagePage) : ImagePage :=
  if p.index = 48 then { p with bytes := p.bytes.set 61 setFeatures } else p

@[simp] theorem withFeatures_index (setFeatures : Byte) (p : ImagePage) :
    (p.withFeatures setFeatures).index = p.index := by
  unfold withFeatures
  split_ifs <;> rfl

@[simp] theorem withFeatures_length (setFeatures : Byte) (p : ImagePage) :
    (p.withFeatures setFeatures).bytes.length = p.bytes.length := by
  unfold withFeatures
  split_ifs
  · exact List.length_set ..
  · rfl

theorem placeFeature_toHex (setFeatures : Byte) {p : ImagePage}
    (hlen : p.bytes.length = FLASH_BLOCK_SIZE) :
    placeFeature setFeatures p.toHex = some (p.withFeatures setFeatures).toHex := by
  have hstart : p.toHex.start = some 0xC00 ↔ p.index = 48 := by
    rw [toHex, Option.some.injEq]
    omega
  have hlong : 61 < p.toHex.bytes.length := by
    rw [toHex, p.hexBytes_length, hlen]
    decide
  rw [placeFeature, withFeatures]
  by_cases h : p.index = 48
  · rw [if_pos (hstart.mpr h), if_pos hlong, if_pos h]
    congr 1
    rw [toHex, toHex, hexBytes, hexBytes, List.map_set]
  · rw [if_neg (fun hs => h (hstart.mp hs)), if_neg h]

/-- A page of halts. -/
def halts (index : ℕ) : ImagePage := ⟨index, List.replicate FLASH_BLOCK_SIZE 0x30⟩

theorem halts_toHex (index : ℕ) : (halts index).toHex = blankPage index := by
  rw [toHex, blankPage, hexBytes, halts, List.map_replicate, Nat.cast_mul, mul_comm]
  rfl

end ImagePage

theorem mapM_toPage (pages : List ImagePage) :
    (pages.map (·.toHex)).mapM HexPage.toPage = some (pages.map (·.toPage)) := by
  induction pages with
  | nil => rfl
  | cons p pages ih =>
      rw [List.map_cons, List.mapM_cons, p.toPage_toHex, ih]
      rfl

theorem preparedPages_toHex (UNSAFE : Bool) {pages : List ImagePage}
    (hindex : ∀ p ∈ pages, p.index < 128)
    (hlen : ∀ p ∈ pages, p.bytes.length = FLASH_BLOCK_SIZE) :
    preparedPages UNSAFE (pages.map (·.toHex)) =
      some ((pages.map (·.toPage)).map (·.prepared UNSAFE)).reverse := by
  rw [preparedPages, mapM_toPage, Option.bind_eq_bind, Option.bind_some]
  apply preparePages_eq
  intro page hpage
  obtain ⟨p, hp, rfl⟩ := List.mem_map.mp hpage
  exact ImagePage.toPage_fits (hindex p hp) (hlen p hp)

/-- The numbers of the pages that have no code. -/
def blanksOf (pages : List ImagePage) (blanks : List ℕ) : List ℕ :=
  blanks.filter (fun i => i ∉ pages.map (·.index))

theorem foldlM_removeBlank {pages : List ImagePage} (hnodup : (pages.map (·.index)).Nodup)
    {blanks : List ℕ} (hblanks : blanks.Nodup) (hmem : ∀ p ∈ pages, p.index ∈ blanks) :
    (pages.map (·.toHex)).foldlM removeBlank blanks = some (blanksOf pages blanks) := by
  induction pages generalizing blanks with
  | nil => simp [blanksOf]
  | cons p pages ih =>
      rw [List.map_cons, List.nodup_cons] at hnodup
      obtain ⟨hp, hmem⟩ := List.forall_mem_cons.mp hmem
      have hdiv : (((64 * p.index : ℕ) : ℤ) / 64).toNat = p.index := by omega
      have hremove : removeBlank blanks p.toHex = some (blanks.erase p.index) := by
        rw [removeBlank, ImagePage.toHex]
        simp only [Option.bind_eq_bind, Option.bind_some]
        rw [hdiv, if_pos ⟨Int.natCast_nonneg _, hp⟩]
      have hrest : ∀ q ∈ pages, q.index ∈ blanks.erase p.index := by
        intro q hq
        rw [hblanks.mem_erase_iff]
        exact ⟨fun h => hnodup.1 (List.mem_map.mpr ⟨q, hq, h⟩), hmem q hq⟩
      rw [List.map_cons, List.foldlM_cons, hremove]
      simp only [Option.bind_eq_bind, Option.bind_some]
      rw [ih hnodup.2 (hblanks.erase _) hrest, hblanks.erase_eq_filter, blanksOf, blanksOf,
        List.filter_filter]
      congr 2
      funext i
      rw [Bool.eq_iff_iff]
      simp [and_comm]

namespace Image

variable (image : Image)

theorem mem_code {p : ImagePage} (h : p ∈ image.code) : p ∈ image.pages := List.mem_of_mem_filter h

theorem index_nodup : (image.pages.map (·.index)).Nodup := by
  rw [List.Nodup, List.pairwise_map]
  exact image.sorted.imp (fun h => Nat.ne_of_lt h)

theorem code_nodup : (image.code.map (·.index)).Nodup :=
  image.index_nodup.sublist (List.filter_sublist.map _)

/-- The code pages as they are written. -/
def written (setFeatures : Byte) (version : ℕ) : List ImagePage :=
  if setFeatures ≠ 0 ∧ (0x0101 ≤ version ∨ version = 0) then
    image.code.map (·.withFeatures setFeatures)
  else image.code

/-- The blank pages that are written. -/
def blanked (blankPages : Bool) : List ImagePage :=
  if blankPages then (blanksOf image.code (List.range 128)).map .halts else []

theorem mapM_placeFeature (setFeatures : Byte) {pages : List ImagePage}
    (hlen : ∀ p ∈ pages, p.bytes.length = FLASH_BLOCK_SIZE) :
    (pages.map (·.toHex)).mapM (placeFeature setFeatures) =
      some ((pages.map (·.withFeatures setFeatures)).map (·.toHex)) := by
  induction pages with
  | nil => rfl
  | cons p pages ih =>
      obtain ⟨hp, hrest⟩ := List.forall_mem_cons.mp hlen
      rw [List.map_cons, List.mapM_cons, ImagePage.placeFeature_toHex setFeatures hp, ih hrest]
      rfl

theorem written_wellFormed (setFeatures : Byte) (version : ℕ) :
    (∀ p ∈ image.written setFeatures version, p.index < 128) ∧
      (∀ p ∈ image.written setFeatures version, p.bytes.length = FLASH_BLOCK_SIZE) ∧
      (image.written setFeatures version).map (·.index) = image.code.map (·.index) := by
  rw [written]
  split_ifs
  · refine ⟨fun q hq => ?_, fun q hq => ?_, ?_⟩
    · obtain ⟨p, hp, rfl⟩ := List.mem_map.mp hq
      rw [ImagePage.withFeatures_index]
      exact image.index_lt p (image.mem_code hp)
    · obtain ⟨p, hp, rfl⟩ := List.mem_map.mp hq
      rw [ImagePage.withFeatures_length]
      exact image.length_eq p (image.mem_code hp)
    · rw [List.map_map]
      apply List.map_congr_left
      exact fun p _ => ImagePage.withFeatures_index setFeatures p
  · exact ⟨fun p hp => image.index_lt p (image.mem_code hp),
      fun p hp => image.length_eq p (image.mem_code hp), rfl⟩

theorem blanked_wellFormed (blankPages : Bool) :
    (∀ p ∈ image.blanked blankPages, p.index < 128) ∧
      ∀ p ∈ image.blanked blankPages, p.bytes.length = FLASH_BLOCK_SIZE := by
  rw [blanked]
  split_ifs
  · refine ⟨fun q hq => ?_, fun q hq => ?_⟩
    · obtain ⟨i, hi, rfl⟩ := List.mem_map.mp hq
      exact List.mem_range.mp (List.mem_of_mem_filter hi)
    · obtain ⟨i, -, rfl⟩ := List.mem_map.mp hq
      exact List.length_replicate
  · exact ⟨fun p hp => absurd hp List.not_mem_nil, fun p hp => absurd hp List.not_mem_nil⟩

/-- **A file that says the image** is written as its code pages and then its blank ones. -/
theorem writeHexFile_eq {input : List (List Char)}
    (hread : readPages input = some (image.code.map (·.toHex))) (UNSAFE blankPages : Bool)
    (setFeatures : Byte) (version : ℕ) :
    writeHexFile UNSAFE blankPages setFeatures version input =
      some ((((image.written setFeatures version).map (·.toPage)).map (·.prepared UNSAFE)).reverse,
        (((image.blanked blankPages).map (·.toPage)).map (·.prepared UNSAFE)).reverse) := by
  have hblanks : findBlanks blankPages (image.code.map (·.toHex)) =
      some (if blankPages then blanksOf image.code (List.range 128) else []) := by
    rw [findBlanks]
    split_ifs
    · exact foldlM_removeBlank image.code_nodup List.nodup_range
        (fun p hp => List.mem_range.mpr (image.index_lt p (image.mem_code hp)))
    · rfl
  have hplace : placeFeatures setFeatures version (image.code.map (·.toHex)) =
      some ((image.written setFeatures version).map (·.toHex)) := by
    rw [placeFeatures, written]
    split_ifs
    · exact mapM_placeFeature setFeatures (fun p hp => image.length_eq p (image.mem_code hp))
    · rfl
  have hblank : (if blankPages then blanksOf image.code (List.range 128) else []).map blankPage =
      (image.blanked blankPages).map (·.toHex) := by
    rw [blanked]
    split_ifs
    · rw [List.map_map]
      exact List.map_congr_left (fun i _ => (ImagePage.halts_toHex i).symm)
    · rfl
  obtain ⟨hindex, hlen, -⟩ := image.written_wellFormed setFeatures version
  obtain ⟨hindex', hlen'⟩ := image.blanked_wellFormed blankPages
  simp only [writeHexFile, hread, Option.bind_eq_bind, Option.bind_some, hblanks, hplace, hblank,
    preparedPages_toHex UNSAFE hindex hlen, preparedPages_toHex UNSAFE hindex' hlen']

end Image

end IguanaIR
