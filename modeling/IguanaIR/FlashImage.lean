import IguanaIR.FlashUpdate
import IguanaIR.HexFile

/-! # What an update leaves on the flash

The runs of `FlashUpdate` for the pages that `preparePages` and `writeHexFile` prepare.  The pages
are written from the end of the file, so that what an interruption leaves is a file whose last
pages are new: the jump table in page 0 comes last.  -/

namespace IguanaIR

open Firmware

variable {fl : ℚ → ℚ} {target : Client}

/-! ### Page numbers -/

/-- The number of a page that fits is less than 128. -/
theorem Page.entry_toNat {page : Page} (h : page.Fits) : page.entry.1.toNat = page.start / 64 := by
  have hlt := h.1
  rw [entry, BitVec.toNat_ofNat]
  omega

/-- Are the pages pages of the flash, and different ones? -/
structure FlashPages (pages : List Page) : Prop where
  fits : ∀ page ∈ pages, page.Fits
  nodup : (pages.map (fun page => page.start / 64)).Nodup

namespace FlashPages

variable {pages : List Page}

theorem reverse (h : FlashPages pages) : FlashPages pages.reverse where
  fits page hpage := h.fits page (List.mem_reverse.mp hpage)
  nodup := by
    rw [List.map_reverse, List.nodup_reverse]
    exact h.nodup

theorem entries_nodup (h : FlashPages pages) : ((pages.map (·.entry)).map Prod.fst).Nodup := by
  have hnumbers : ((pages.map (·.entry)).map Prod.fst).map BitVec.toNat =
      pages.map (fun page => page.start / 64) := by
    rw [List.map_map, List.map_map]
    exact List.map_congr_left (fun page hpage => Page.entry_toNat (h.fits page hpage))
  apply List.Nodup.of_map BitVec.toNat
  rw [hnumbers]
  exact h.nodup

theorem preparePages (h : FlashPages pages) (UNSAFE : Bool) :
    preparePages UNSAFE pages = some (pages.reverse.map (·.prepared UNSAFE)) := by
  rw [preparePages_eq UNSAFE h.fits, List.map_reverse]

end FlashPages

theorem writable_all (pages : List Page) : writable true pages = pages.map (·.entry) := by
  have hall : pages.filter (·.mayWrite true) = pages :=
    List.filter_eq_self.mpr (fun _ _ => rfl)
  rw [writable, hall]

/-- Pages in the protected half of the flash are not among those that a dry run writes. -/
theorem not_mem_writable_dry {pages : List Page} (hfits : ∀ page ∈ pages, page.Fits) {b : Byte}
    (hb : b.toNat < 48) : b ∉ (writable false pages).map Prod.fst := by
  intro hmem
  obtain ⟨_, hentry, rfl⟩ := List.mem_map.mp hmem
  obtain ⟨page, hpage, rfl⟩ := List.mem_map.mp hentry
  obtain ⟨hpage, hmay⟩ := List.mem_filter.mp hpage
  rw [Page.entry_toNat (hfits page hpage)] at hb
  rw [Page.mayWrite, Bool.false_or, decide_eq_true_eq] at hmay
  omega

/-! ### A device with a loader -/

def startedRig : Rig := ⟨burstDevice, Mcu.cleared 0⟩

def scriptClient : Client := ⟨5, 0, IG_PROTOCOL_VERSION⟩

/-- A page of halts, but for the number of the page, for the end of the flash. -/
def lastPage : Page := ⟨8128, 0x7F :: List.replicate 63 0x30⟩

/-- Everything is written, and nothing gets lost. -/
def plainRun : FlashRun := ⟨true, false, 0, (· = .intact)⟩

theorem startedRig_ready : startedRig.Ready ∧ 0x200 ≤ startedRig.device.idev.version :=
  ⟨⟨by decide, rfl⟩, by decide⟩

theorem lastPage_flashPages : FlashPages [lastPage] := by
  refine ⟨fun page hpage => ?_, by decide⟩
  rw [List.mem_singleton.mp hpage]
  exact ⟨by decide, rfl⟩

theorem lastPage_prepared : preparePages true [lastPage] = some [lastPage.prepared true] :=
  lastPage_flashPages.preparePages true

theorem lastPage_run (flasher : Flasher) : ∃ rig', WritesPages Binary64.nearest scriptClient plainRun
    0 [lastPage.prepared true] startedRig rig' .completed :=
  @writesPages_exists Binary64.nearest scriptClient flasher rfl plainRun rfl [lastPage]
    lastPage_flashPages.fits (fun _ _ => .inl rfl) 0 startedRig startedRig_ready.1 startedRig_ready.2

/-! ### Interruptions -/

/-- Attempts at writing the same pages, each of which may stop anywhere.  Before each of them the
device starts again. -/
inductive Attempts (fl : ℚ → ℚ) (target : Client) (UNSAFE : Bool)
    (pages : List PreparedPage) : Rig → Rig → Prop
  | none (rig : Rig) : Attempts fl target UNSAFE pages rig rig
  | again {rig rig₁ rig₂ rig' : Rig} {run : FlashRun} {ending : Ending}
      (hbefore : Attempts fl target UNSAFE pages rig rig₁) (hreboot : Rebooted rig₁ rig₂)
      (hrun : run.UNSAFE = UNSAFE)
      (hwrites : WritesPages fl target run 0 pages rig₂ rig' ending) :
      Attempts fl target UNSAFE pages rig rig'

/-- Attempts leave the pages alone that are not in the file. -/
theorem Attempts.others (htarget : target.version = IG_PROTOCOL_VERSION) {UNSAFE : Bool} {pages : List Page}
    (hfits : ∀ page ∈ pages, page.Fits) {rig rig' : Rig}
    (h : Attempts fl target UNSAFE (pages.map (·.prepared UNSAFE)) rig rig') {b : Byte}
    (hb : b ∉ (writable UNSAFE pages).map Prod.fst) :
    rig'.mcu.pageBytes b = rig.mcu.pageBytes b := by
  induction h with
  | none => rfl
  | again hbefore hreboot hrun hwrites ih =>
      subst hrun
      obtain ⟨-, -, k, hwrote⟩ := writesPages_wrote htarget hfits hreboot.ready
        hreboot.version hwrites
      rw [hwrote.flash, PageStore.write_of_notMem, Mcu.pageBytes_congr hreboot.flash, ih]
      intro hmem
      apply hb
      obtain ⟨entry, hentry, rfl⟩ := List.mem_map.mp hmem
      obtain ⟨page, hpage, rfl⟩ := List.mem_map.mp hentry
      obtain ⟨hpage, hmay⟩ := List.mem_filter.mp hpage
      refine List.mem_map.mpr ⟨page.entry, List.mem_map.mpr ⟨page, ?_, rfl⟩, rfl⟩
      exact List.mem_filter.mpr ⟨List.mem_of_mem_take hpage, hmay⟩

/-- The pages of a list, and what they hold when all are written. -/
structure HoldsPages (pages : List Page) (before after : Byte → List Byte) : Prop where
  listed : ∀ page ∈ pages, after page.entry.1 = page.bytes
  others : ∀ b, (∀ page ∈ pages, page.entry.1 ≠ b) → after b = before b

theorem notMem_entries {pages : List Page} {b : Byte} (h : ∀ page ∈ pages, page.entry.1 ≠ b) :
    b ∉ (pages.map (·.entry)).map Prod.fst := by
  intro hmem
  obtain ⟨entry, hentry, rfl⟩ := List.mem_map.mp hmem
  obtain ⟨page, hpage, rfl⟩ := List.mem_map.mp hentry
  exact h page hpage rfl

/-- A completed run writes everything. -/
theorem completed_holds (htarget : target.version = IG_PROTOCOL_VERSION) {run : FlashRun}
    (hwrites : run.UNSAFE = true) {pages : List Page} (hpages : FlashPages pages) {rig rig' : Rig}
    (hready : rig.Ready) (hversion : 0x200 ≤ rig.device.idev.version)
    (h : WritesPages fl target run 0 (pages.reverse.map (·.prepared true)) rig rig' .completed) :
    rig'.Ready ∧ 0x200 ≤ rig'.device.idev.version ∧
      HoldsPages pages rig.mcu.pageBytes rig'.mcu.pageBytes := by
  rw [← hwrites] at h
  obtain ⟨hready', hversion', k, hwrote⟩ :=
    writesPages_wrote htarget hpages.reverse.fits hready hversion h
  have hflash : rig'.mcu.pageBytes =
      PageStore.write rig.mcu.pageBytes (pages.reverse.map (·.entry)) := by
    rw [hwrote.flash, (hwrote.completed rfl).1, List.take_length, hwrites, writable_all]
  refine ⟨hready', hversion', fun page hpage => ?_, fun b hb => ?_⟩
  · rw [hflash]
    apply PageStore.write_of_mem hpages.reverse.entries_nodup
    exact List.mem_map.mpr ⟨page, List.mem_reverse.mpr hpage, rfl⟩
  · rw [hflash]
    apply PageStore.write_of_notMem
    exact notMem_entries (fun page hpage => hb page (List.mem_reverse.mp hpage))

namespace Image

variable (image : Image)

/-- What the image says for a page: nothing is a page of halts. -/
def bytesAt (index : ℕ) : List Byte :=
  match image.pages.find? (·.index == index) with
  | some p => p.bytes
  | none => List.replicate FLASH_BLOCK_SIZE 0x30

/-- Is there anything but halts? -/
def hasCodeAt (index : ℕ) : Bool := (image.bytesAt index).any (· != 0x30)

/-- What the page is to hold when the features are placed. -/
def bytesWith (setFeatures : Byte) (version index : ℕ) : List Byte :=
  if index = 48 ∧ setFeatures ≠ 0 ∧ (0x0101 ≤ version ∨ version = 0) ∧ image.hasCodeAt 48 then
    (image.bytesAt index).set 61 setFeatures
  else image.bytesAt index

theorem bytesAt_of_mem {p : ImagePage} (h : p ∈ image.pages) : image.bytesAt p.index = p.bytes := by
  cases hfind : image.pages.find? (·.index == p.index) with
  | none => exact absurd (beq_self_eq_true p.index) (List.find?_eq_none.mp hfind p h)
  | some q =>
      have hq : q ∈ image.pages := List.mem_of_find?_eq_some hfind
      have hfound := List.find?_some hfind
      have hindex : q.index = p.index := beq_iff_eq.mp hfound
      have hqp : q = p := List.inj_on_of_nodup_map image.index_nodup hq h hindex
      rw [bytesAt, hfind, hqp]

theorem bytesAt_of_notMem {index : ℕ} (h : ∀ p ∈ image.pages, p.index ≠ index) :
    image.bytesAt index = List.replicate FLASH_BLOCK_SIZE 0x30 := by
  have hfind : image.pages.find? (·.index == index) = none :=
    List.find?_eq_none.mpr (fun p hp he => h p hp (beq_iff_eq.mp he))
  rw [bytesAt, hfind]

/-- The pages that have code are those that are kept. -/
theorem hasCodeAt_iff {index : ℕ} :
    image.hasCodeAt index = true ↔ index ∈ image.code.map (·.index) := by
  constructor
  · intro h
    by_cases hmem : ∃ p ∈ image.pages, p.index = index
    · obtain ⟨p, hp, rfl⟩ := hmem
      rw [hasCodeAt, image.bytesAt_of_mem hp] at h
      exact List.mem_map.mpr ⟨p, List.mem_filter.mpr ⟨hp, h⟩, rfl⟩
    · rw [hasCodeAt, image.bytesAt_of_notMem (fun p hp he => hmem ⟨p, hp, he⟩)] at h
      exact absurd h (by decide)
  · intro h
    obtain ⟨p, hp, rfl⟩ := List.mem_map.mp h
    rw [hasCodeAt, image.bytesAt_of_mem (image.mem_code hp)]
    exact (List.mem_filter.mp hp).2

/-- What has no code is all halts. -/
theorem bytesAt_of_not_hasCodeAt {index : ℕ} (h : image.hasCodeAt index = false) :
    image.bytesAt index = List.replicate FLASH_BLOCK_SIZE 0x30 := by
  by_cases hmem : ∃ p ∈ image.pages, p.index = index
  · obtain ⟨p, hp, rfl⟩ := hmem
    rw [hasCodeAt, image.bytesAt_of_mem hp, List.any_eq_false] at h
    rw [image.bytesAt_of_mem hp]
    rw [List.eq_replicate_iff]
    refine ⟨image.length_eq p hp, fun b hb => ?_⟩
    simpa using h b hb
  · exact image.bytesAt_of_notMem (fun p hp he => hmem ⟨p, hp, he⟩)

/-- The pages that are prepared for a list of them. -/
theorem flashPages_map {pages : List ImagePage} (hindex : ∀ p ∈ pages, p.index < 128)
    (hlen : ∀ p ∈ pages, p.bytes.length = FLASH_BLOCK_SIZE)
    (hnodup : (pages.map (·.index)).Nodup) : FlashPages (pages.map (·.toPage)) where
  fits page hpage := by
    obtain ⟨p, hp, rfl⟩ := List.mem_map.mp hpage
    exact ImagePage.toPage_fits (hindex p hp) (hlen p hp)
  nodup := by
    have hnumbers : (pages.map (·.toPage)).map (fun page => page.start / 64) =
        pages.map (·.index) := by
      rw [List.map_map]
      apply List.map_congr_left
      intro p _
      exact Nat.mul_div_cancel_left p.index (by decide)
    rw [hnumbers]
    exact hnodup

theorem written_flashPages (setFeatures : Byte) (version : ℕ) :
    FlashPages ((image.written setFeatures version).map (·.toPage)) := by
  obtain ⟨hindex, hlen, hnumbers⟩ := image.written_wellFormed setFeatures version
  apply flashPages_map hindex hlen
  rw [hnumbers]
  exact image.code_nodup

theorem blanked_flashPages (blankPages : Bool) :
    FlashPages ((image.blanked blankPages).map (·.toPage)) := by
  obtain ⟨hindex, hlen⟩ := image.blanked_wellFormed blankPages
  apply flashPages_map hindex hlen
  rw [blanked]
  split_ifs
  · rw [List.map_map]
    have hid : (fun p : ImagePage => p.index) ∘ ImagePage.halts = id := rfl
    rw [hid, List.map_id]
    exact List.nodup_range.filter _
  · exact List.nodup_nil

theorem toPage_entry {p : ImagePage} (hindex : p.index < 128) {b : Byte}
    (hb : p.toPage.entry.1 = b) : p.index = b.toNat := by
  have hnumber : p.toPage.entry.1 = BitVec.ofNat 8 (64 * p.index / 64) := rfl
  rw [← hb, hnumber, Nat.mul_div_cancel_left _ (by decide), BitVec.toNat_ofNat]
  omega

theorem entry_eq {p : ImagePage} {b : Byte} (hindex : p.index = b.toNat) :
    p.toPage.entry.1 = b := by
  have hnumber : p.toPage.entry.1 = BitVec.ofNat 8 (64 * p.index / 64) := rfl
  rw [hnumber, Nat.mul_div_cancel_left _ (by decide), hindex, BitVec.ofNat_toNat,
    BitVec.setWidth_eq]

/-- The code pages that are written hold what the image says. -/
theorem bytesWith_of_written {setFeatures : Byte} {version : ℕ} {q : ImagePage}
    (h : q ∈ image.written setFeatures version) :
    image.bytesWith setFeatures version q.index = q.bytes := by
  have hcode {p : ImagePage} (hp : p ∈ image.code) :
      image.bytesAt p.index = p.bytes ∧ image.hasCodeAt p.index = true :=
    ⟨image.bytesAt_of_mem (image.mem_code hp),
      image.hasCodeAt_iff.mpr (List.mem_map.mpr ⟨p, hp, rfl⟩)⟩
  rw [written] at h
  split_ifs at h with hplace
  · obtain ⟨p, hp, rfl⟩ := List.mem_map.mp h
    obtain ⟨hbytes, hhas⟩ := hcode hp
    rw [bytesWith, ImagePage.withFeatures_index, hbytes, ImagePage.withFeatures]
    by_cases h48 : p.index = 48
    · rw [h48] at hhas
      rw [if_pos ⟨h48, hplace.1, hplace.2, hhas⟩, if_pos h48]
    · rw [if_neg (fun hc => h48 hc.1), if_neg h48]
  · rw [bytesWith, if_neg (fun hc => hplace ⟨hc.2.1, hc.2.2.1⟩), (hcode h).1]

theorem mem_written_iff {setFeatures : Byte} {version index : ℕ} :
    (∃ q ∈ image.written setFeatures version, q.index = index) ↔
      image.hasCodeAt index = true := by
  rw [image.hasCodeAt_iff, ← (image.written_wellFormed setFeatures version).2.2, List.mem_map]

theorem mem_blanked_iff {blankPages : Bool} {index : ℕ} (hindex : index < 128) :
    (∃ q ∈ image.blanked blankPages, q.index = index) ↔
      blankPages = true ∧ image.hasCodeAt index = false := by
  rw [← Bool.not_eq_true, image.hasCodeAt_iff, blanked]
  split_ifs with hblank
  · rw [hblank]
    constructor
    · rintro ⟨q, hq, rfl⟩
      obtain ⟨i, hi, rfl⟩ := List.mem_map.mp hq
      exact ⟨rfl, of_decide_eq_true (List.mem_filter.mp hi).2⟩
    · rintro ⟨-, hnot⟩
      refine ⟨.halts index, List.mem_map.mpr ⟨index, ?_, rfl⟩, rfl⟩
      exact List.mem_filter.mpr ⟨List.mem_range.mpr hindex, decide_eq_true hnot⟩
  · constructor
    · rintro ⟨q, hq, -⟩
      cases hq
    · rintro ⟨htrue, -⟩
      exact absurd htrue hblank

end Image

/-- What a file says, in the format of the compiler or of the programmer. -/
inductive Describes (image : Image) : List (List Char) → Prop
  | compiled {lineEnd : List Char} {trailer : List (List Char)}
      (hne : image.pages ≠ []) (hend : ∀ c ∈ lineEnd, HexText.isSpace c = true)
      (htrailer : HexScan.EndsRecords trailer) :
      Describes image (image.compiled lineEnd ++ trailer)
  | readouts {lineEnd : List Char} (hend : ∀ c ∈ lineEnd, HexText.isSpace c = true) :
      Describes image (image.readouts lineEnd)

theorem Describes.readPages {image : Image} {input : List (List Char)} (h : Describes image input) :
    readPages input = some (image.code.map (·.toHex)) := by
  cases h with
  | compiled hne hend htrailer => exact readPages_compiled image hne hend htrailer
  | readouts hend => exact readPages_readouts image hend

theorem ImagePage.toHex_inj {p q : ImagePage} (h : p.toHex = q.toHex) : p = q := by
  have hpage := congrArg HexPage.toPage h
  rw [p.toPage_toHex, q.toPage_toHex, Option.some.injEq, ImagePage.toPage, ImagePage.toPage,
    Page.mk.injEq] at hpage
  obtain ⟨hstart, hbytes⟩ := hpage
  cases p
  cases q
  have hindex := Nat.eq_of_mul_eq_mul_left (by decide : 0 < 64) hstart
  dsimp only at hindex hbytes
  rw [hindex, hbytes]

namespace Image

variable (image : Image)

/-- A page is kept when the image has code there, and says these bytes. -/
theorem mem_code_iff {p : ImagePage} :
    p ∈ image.code ↔ image.hasCodeAt p.index = true ∧ image.bytesAt p.index = p.bytes := by
  constructor
  · intro h
    exact ⟨image.hasCodeAt_iff.mpr (List.mem_map.mpr ⟨p, h, rfl⟩),
      image.bytesAt_of_mem (image.mem_code h)⟩
  · rintro ⟨hhas, hbytes⟩
    obtain ⟨q, hq, hindex⟩ := List.mem_map.mp (image.hasCodeAt_iff.mp hhas)
    have hqbytes := image.bytesAt_of_mem (image.mem_code hq)
    rw [hindex, hbytes] at hqbytes
    have hqp : q = p := by
      cases p
      cases q
      dsimp only at hindex hqbytes
      rw [hindex, hqbytes]
    rwa [← hqp]

theorem bytesAt_eq_of_code {image₁ image₂ : Image} (h : image₁.code = image₂.code) (index : ℕ) :
    image₁.bytesAt index = image₂.bytesAt index := by
  have hhas : image₁.hasCodeAt index = image₂.hasCodeAt index := by
    rw [Bool.eq_iff_iff, image₁.hasCodeAt_iff, image₂.hasCodeAt_iff, h]
  cases h₁ : image₁.hasCodeAt index with
  | true =>
      obtain ⟨p, hp, rfl⟩ := List.mem_map.mp (image₁.hasCodeAt_iff.mp h₁)
      rw [(image₁.mem_code_iff.mp hp).2]
      rw [h] at hp
      exact (image₂.mem_code_iff.mp hp).2.symm
  | false =>
      rw [image₁.bytesAt_of_not_hasCodeAt h₁, image₂.bytesAt_of_not_hasCodeAt (hhas.symm.trans h₁)]

theorem code_eq_of_bytesAt {image₁ image₂ : Image}
    (h : ∀ index, image₁.bytesAt index = image₂.bytesAt index) : image₁.code = image₂.code := by
  have hmem (p : ImagePage) : p ∈ image₁.code ↔ p ∈ image₂.code := by
    rw [image₁.mem_code_iff, image₂.mem_code_iff, hasCodeAt, hasCodeAt, h]
  have hsorted (image : Image) : image.code.Pairwise (fun p q => p.index < q.index) :=
    image.sorted.sublist List.filter_sublist
  have hnodup (image : Image) : image.code.Nodup := image.code_nodup.of_map _
  apply List.Perm.eq_of_pairwise _ (hsorted image₁) (hsorted image₂)
  · exact (List.perm_ext_iff_of_nodup (hnodup image₁) (hnodup image₂)).mpr hmem
  · intro p q _ _ hpq hqp
    exact absurd hpq (Nat.lt_asymm hqp)

end Image

/-- **Files are read the same** exactly when they say the same for every page, in whatever format
they are. -/
theorem readPages_eq_iff {image₁ image₂ : Image} {input₁ input₂ : List (List Char)}
    (h₁ : Describes image₁ input₁) (h₂ : Describes image₂ input₂) :
    readPages input₁ = readPages input₂ ↔
      ∀ index, image₁.bytesAt index = image₂.bytesAt index := by
  rw [h₁.readPages, h₂.readPages, Option.some.injEq]
  constructor
  · intro h
    apply Image.bytesAt_eq_of_code
    exact List.map_injective_iff.mpr (fun _ _ => ImagePage.toHex_inj) h
  · intro h
    rw [Image.code_eq_of_bytesAt h]

/-- **A file ends up on the flash**: behind the two runs for it, every page holds what the file
says, as far as the file has code there or blank pages are written, too. -/
theorem writeHexFile_flash (htarget : target.version = IG_PROTOCOL_VERSION) {image : Image}
    {input : List (List Char)} (hfile : Describes image input) {blankPages : Bool}
    {setFeatures : Byte} {version : ℕ} {code blank : List PreparedPage}
    (hwrite : writeHexFile true blankPages setFeatures version input = some (code, blank))
    {run run' : FlashRun} (hwrites : run.UNSAFE = true) (hwrites' : run'.UNSAFE = true)
    {rig rig₁ rig₂ rig' : Rig} (hready : rig.Ready) (hversion : 0x200 ≤ rig.device.idev.version)
    (hcode : WritesPages fl target run 0 code rig rig₁ .completed) (hreboot : Rebooted rig₁ rig₂)
    (hblank : WritesPages fl target run' 0 blank rig₂ rig' .completed) {b : Byte}
    (hb : b.toNat < 128) :
    rig'.mcu.pageBytes b =
      if image.hasCodeAt b.toNat = true ∨ blankPages = true then
        image.bytesWith setFeatures version b.toNat
      else rig.mcu.pageBytes b := by
  have hpages := image.written_flashPages setFeatures version
  have hblanks := image.blanked_flashPages blankPages
  obtain ⟨rfl, rfl⟩ := Prod.mk.inj (Option.some.inj (hwrite.symm.trans
    (image.writeHexFile_eq hfile.readPages true blankPages setFeatures version)))
  rw [← List.map_reverse] at hcode hblank
  obtain ⟨-, -, hlisted, hothers⟩ := completed_holds htarget hwrites hpages hready hversion hcode
  obtain ⟨-, -, hlisted', hothers'⟩ :=
    completed_holds htarget hwrites' hblanks hreboot.ready hreboot.version hblank
  rw [Mcu.pageBytes_congr hreboot.flash] at hothers'
  have hindex := (image.written_wellFormed setFeatures version).1
  have hindex' := (image.blanked_wellFormed blankPages).1
  -- a page is code, or blank, or neither
  have hrest (hnot : ¬∃ q ∈ image.blanked blankPages, q.index = b.toNat) :
      rig'.mcu.pageBytes b = rig₁.mcu.pageBytes b := by
    apply hothers'
    intro page hpage he
    obtain ⟨q, hq, rfl⟩ := List.mem_map.mp hpage
    exact hnot ⟨q, hq, Image.toPage_entry (hindex' q hq) he⟩
  cases hhas : image.hasCodeAt b.toNat with
  | true =>
      obtain ⟨q, hq, hqb⟩ := (@Image.mem_written_iff image setFeatures version _).mpr
        hhas
      have hnot : ¬∃ q ∈ image.blanked blankPages, q.index = b.toNat := by
        rw [image.mem_blanked_iff hb, hhas]
        exact fun h => absurd h.2 (by decide)
      have hpage := hlisted q.toPage (List.mem_map.mpr ⟨q, hq, rfl⟩)
      rw [Image.entry_eq hqb] at hpage
      rw [if_pos (.inl rfl), hrest hnot, hpage, ← hqb]
      exact (image.bytesWith_of_written hq).symm
  | false =>
      have hold : rig₁.mcu.pageBytes b = rig.mcu.pageBytes b := by
        apply hothers
        intro page hpage he
        obtain ⟨q, hq, rfl⟩ := List.mem_map.mp hpage
        have hmem := image.mem_written_iff.mp ⟨q, hq, Image.toPage_entry (hindex q hq) he⟩
        rw [hhas] at hmem
        cases hmem
      by_cases hon : blankPages = true
      · obtain ⟨q, hq, hqb⟩ := (image.mem_blanked_iff hb).mpr ⟨hon, hhas⟩
        have hpage := hlisted' q.toPage (List.mem_map.mpr ⟨q, hq, rfl⟩)
        rw [Image.entry_eq hqb] at hpage
        rw [if_pos (.inr hon), hpage, Image.bytesWith, if_neg, image.bytesAt_of_not_hasCodeAt hhas]
        · rw [Image.blanked, if_pos hon] at hq
          obtain ⟨i, -, rfl⟩ := List.mem_map.mp hq
          rfl
        · rintro ⟨h48, -, -, hcode48⟩
          rw [← h48, hhas] at hcode48
          cases hcode48
      · rw [if_neg (fun h => h.elim Bool.false_ne_true hon), hrest, hold]
        rw [image.mem_blanked_iff hb]
        exact fun h => hon h.1

/-- The image of a single page. -/
def lastPageImage : Image where
  pages := [⟨127, lastPage.bytes⟩]
  index_lt := by decide
  length_eq := by decide
  sorted := List.pairwise_singleton _ _

theorem lineEnd_isSpace : ∀ c ∈ ['\r', '\n'], HexText.isSpace c = true :=
  List.forall_mem_cons.mpr ⟨rfl, List.forall_mem_cons.mpr ⟨rfl, List.forall_mem_nil _⟩⟩

/-- Its file, in the format of the compiler. -/
theorem lastPageImage_compiled :
    Describes lastPageImage (lastPageImage.compiled ['\r', '\n'] ++ []) :=
  .compiled (List.cons_ne_nil _ _) lineEnd_isSpace ⟨fun line h => by cases h⟩

/-- The two formats of the file. -/
theorem readPages_eq_iff_lastPage : readPages (lastPageImage.compiled ['\r', '\n'] ++ []) =
    readPages (lastPageImage.readouts ['\r', '\n']) :=
  (readPages_eq_iff lastPageImage_compiled (.readouts lineEnd_isSpace)).mpr (fun _ => rfl)

theorem writeHexFile_flash_lastPage : ∃ rig' : Rig, rig'.mcu.pageBytes 127 = lastPage.bytes := by
  have hwrite := lastPageImage.writeHexFile_eq lastPageImage_compiled.readPages true false 0 0x0309
  obtain ⟨rig₁, h⟩ := lastPage_run .usbIrReflasher
  obtain ⟨hready₁, hversion₁, -⟩ := completed_holds rfl rfl lastPage_flashPages startedRig_ready.1
    startedRig_ready.2 h
  have hpage := @writeHexFile_flash Binary64.nearest scriptClient rfl lastPageImage _
    lastPageImage_compiled false 0 0x0309 _ _ hwrite plainRun plainRun rfl rfl startedRig rig₁ rig₁ rig₁ startedRig_ready.1
    startedRig_ready.2 h ⟨rfl, hready₁, hversion₁⟩ (.completed 0 rig₁) 127 (by decide)
  have hcode : lastPageImage.hasCodeAt (127 : Byte).toNat = true := by decide
  rw [if_pos (.inl hcode)] at hpage
  exact ⟨rig₁, hpage⟩

end IguanaIR
