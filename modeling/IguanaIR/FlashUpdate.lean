import IguanaIR.BlockExchange
import IguanaIR.PageStore

/-! # Writing the flash from the host

`writePageToDevice` and `writePagesToDevice` of the `iguanaIR-reflasher` script, page by page down
to the flash.

The script may be stopped at any time, a request or its reply may get lost, and the device is reset
on the way.  A reset leaves the flash as it is, and may start the other firmware. -/

namespace IguanaIR

open Firmware

variable {fl : ℚ → ℚ} {target : Client}

/-- The firmwares that write pages.  The loader has the functions of its body, too. -/
inductive Flasher where
  | usbIrLoader (others : Byte → Mcu → Option Mcu)
  | usbIrReflasher

def Flasher.mainRecv : Flasher → Mcu → Option Mcu
  | usbIrLoader others => Firmware.mainRecv others
  | usbIrReflasher => UsbIrReflasher.mainRecv

theorem Flasher.programsPages : ∀ flasher : Flasher, ProgramsPages flasher.mainRecv
  | usbIrLoader others => programsPages_loader others
  | usbIrReflasher => UsbIrReflasher.programsPages

/-! ### The script -/

def removeData (response : DataPacket) : List Byte :=
  (response.data.getD []).take response.dataLen.toNat

/-- Is the page written?  `none` is the message that ends the script.  `bytesAreStr` says that the
empty reply of old versions compares equal to an empty string. -/
def writePageToDevice (bytesAreStr : Bool) (page : PreparedPage) (reply : Option DataPacket) :
    Option Bool :=
  match reply with
  | none => some false
  | some response =>
      match removeData response with
      | [] => some bytesAreStr
      | x :: rest =>
          if (x :: rest).foldl (fun chksum x => chksum * 256 + x.toNat) 0 = page.chksum then some true
          else none

/-- How `writePagesToDevice` ends. -/
inductive Ending where
  | completed
  | failed
  | fatal
  | interrupted
deriving DecidableEq, Repr

/-- The device starts again, and the daemon finds it again. -/
structure Rebooted (rig rig' : Rig) : Prop where
  flash : rig'.mcu.flash = rig.mcu.flash
  ready : rig'.Ready
  version : 0x200 ≤ rig'.device.idev.version

/-- A reboot in front of page number `rebootPage`, if it is this one. -/
def RebootsAt (rebootPage count : ℕ) (rig rig' : Rig) : Prop :=
  if count = rebootPage then Rebooted rig rig' else rig' = rig

/-- The options, and what may happen to the requests. -/
structure FlashRun where
  UNSAFE : Bool
  bytesAreStr : Bool
  rebootPage : ℕ
  allowed : Fault → Prop

/-- The loop of `writePagesToDevice`, behind `count` pages. -/
inductive WritesPages (fl : ℚ → ℚ) (target : Client) (run : FlashRun) :
    ℕ → List PreparedPage → Rig → Rig → Ending → Prop
  | interrupted (count : ℕ) (pages : List PreparedPage) (rig : Rig) :
      WritesPages fl target run count pages rig rig .interrupted
  | completed (count : ℕ) (rig : Rig) : WritesPages fl target run count [] rig rig .completed
  /-- Page 0 is not written during a dry run. -/
  | skipped {count : ℕ} {page : PreparedPage} {pages : List PreparedPage} {rig rig₁ rig' : Rig}
      {ending : Ending} (hreboot : RebootsAt run.rebootPage (count + 1) rig rig₁)
      (hzero : page.start = 0) (hdry : run.UNSAFE = false)
      (hrest : WritesPages fl target run (count + 1) pages rig₁ rig' ending) :
      WritesPages fl target run count (page :: pages) rig rig' ending
  | written {count : ℕ} {page : PreparedPage} {pages : List PreparedPage}
      {rig rig₁ rig₂ rig' : Rig} {ending : Ending} {flasher : Flasher} {fault : Fault}
      {reply : Option DataPacket}
      (hreboot : RebootsAt run.rebootPage (count + 1) rig rig₁)
      (hgoes : ¬(page.start = 0 ∧ run.UNSAFE = false)) (hfault : run.allowed fault)
      (hexchange : DeviceExchange fl flasher.mainRecv target fault (blockRequest page.data) rig₁ rig₂
        reply)
      (hdone : writePageToDevice run.bytesAreStr page reply = some true)
      (hrest : WritesPages fl target run (count + 1) pages rig₂ rig' ending) :
      WritesPages fl target run count (page :: pages) rig rig' ending
  | stopped {count : ℕ} {page : PreparedPage} {pages : List PreparedPage} {rig rig₁ rig' : Rig}
      {flasher : Flasher} {fault : Fault} {reply : Option DataPacket}
      (hreboot : RebootsAt run.rebootPage (count + 1) rig rig₁)
      (hgoes : ¬(page.start = 0 ∧ run.UNSAFE = false)) (hfault : run.allowed fault)
      (hexchange : DeviceExchange fl flasher.mainRecv target fault (blockRequest page.data) rig₁ rig'
        reply)
      (hdone : writePageToDevice run.bytesAreStr page reply ≠ some true) :
      WritesPages fl target run count (page :: pages) rig rig'
        (if writePageToDevice run.bytesAreStr page reply = none then .fatal else .failed)

/-! ### One page -/

/-- The number of a page, and its bytes. -/
def Page.entry (page : Page) : Byte × List Byte := (BitVec.ofNat 8 (page.start / 64), page.bytes)

/-- May the page be written with this option? -/
def Page.mayWrite (UNSAFE : Bool) (page : Page) : Bool := UNSAFE || 48 ≤ page.start / 64

theorem Page.mayWrite_iff {UNSAFE : Bool} {page : Page} (h : page.Fits) :
    page.mayWrite UNSAFE = true ↔ (if UNSAFE then (0x42 : Byte) else 0) = MAGIC_WRITE_BYTE ∨
      48 ≤ page.entry.1.toNat := by
  have hlt := h.1
  have hindex : page.entry.1.toNat = page.start / 64 := by
    rw [Page.entry, BitVec.toNat_ofNat]
    omega
  rw [hindex, mayWrite, Bool.or_eq_true, decide_eq_true_eq]
  cases UNSAFE with
  | true => simp [MAGIC_WRITE_BYTE]
  | false => simp [MAGIC_WRITE_BYTE]

/-- The checksum of the page that was read back. -/
theorem writePageToDevice_accepts {UNSAFE bytesAreStr : Bool} {page : Page} (h : page.Fits) :
    writePageToDevice bytesAreStr (page.prepared UNSAFE)
      (some ⟨IG_DEV_WRITEBLOCK, 2, some (sumBytes page.bytes)⟩) = some true := by
  have hlen : page.bytes.length ≤ 256 := by
    rw [h.2]
    decide
  have hsum : 256 * ((pageSum page.bytes).extractLsb' 8 8).toNat +
      ((pageSum page.bytes).extractLsb' 0 8).toNat = (pageSum page.bytes).toNat := by
    rw [highByte_toNat, lowByte_toNat]
    omega
  have hfold : [(pageSum page.bytes).extractLsb' 8 8, (pageSum page.bytes).extractLsb' 0 8].foldl
      (fun chksum x => chksum * 256 + x.toNat) 0 = (pageSum page.bytes).toNat := by
    rw [← hsum, List.foldl_cons, List.foldl_cons, List.foldl_nil]
    omega
  exact if_pos hfold

/-! ### The whole run -/

/-- What the pages leave of the flash when those that may be written are. -/
def writable (UNSAFE : Bool) (pages : List Page) : List (Byte × List Byte) :=
  (pages.filter (·.mayWrite UNSAFE)).map (·.entry)

theorem writable_cons (UNSAFE : Bool) (page : Page) (pages : List Page) :
    writable UNSAFE (page :: pages) =
      (if page.mayWrite UNSAFE then [page.entry] else []) ++ writable UNSAFE pages := by
  rw [writable, List.filter_cons]
  split_ifs <;> rfl

theorem RebootsAt.keeps {rebootPage count : ℕ} {rig rig' : Rig} (h : RebootsAt rebootPage count rig rig')
    (hready : rig.Ready) (hversion : 0x200 ≤ rig.device.idev.version) :
    rig'.Ready ∧ 0x200 ≤ rig'.device.idev.version ∧ rig'.mcu.pageBytes = rig.mcu.pageBytes := by
  unfold RebootsAt at h
  split_ifs at h
  · exact ⟨h.ready, h.version, Mcu.pageBytes_congr h.flash⟩
  · rw [h]
    exact ⟨hready, hversion, rfl⟩

/-- **One page**: it is on the flash or not, and the script knows unless something got lost. -/
theorem exchange_page (bytesAreStr : Bool) (htarget : target.version = IG_PROTOCOL_VERSION)
    {flasher : Flasher} {UNSAFE : Bool} {page : Page} (hfits : page.Fits) {rig rig' : Rig} {fault : Fault}
    {reply : Option DataPacket} (hready : rig.Ready) (hversion : 0x200 ≤ rig.device.idev.version)
    (h : DeviceExchange fl flasher.mainRecv target fault (blockRequest (page.prepared UNSAFE).data) rig
      rig' reply) :
    rig'.Ready ∧ 0x200 ≤ rig'.device.idev.version ∧
      rig'.mcu.pageBytes = PageStore.write rig.mcu.pageBytes
        (if fault ≠ .unsent then writable UNSAFE [page] else []) ∧
      writePageToDevice bytesAreStr (page.prepared UNSAFE) reply =
        some (decide (fault = .intact) && page.mayWrite UNSAFE) := by
  have hblock : (page.prepared UNSAFE).data = [page.entry.1, if UNSAFE then 0x42 else 0,
      (pageSum page.bytes).extractLsb' 8 8, (pageSum page.bytes).extractLsb' 0 8] ++ page.bytes := rfl
  rw [hblock] at h
  obtain ⟨hkeeps, hpages, hreply⟩ := exchange_block flasher.programsPages htarget hversion hready hfits.2 h
  have hwrites : Writes fault page.entry.1 (if UNSAFE then 0x42 else 0) ↔
      fault ≠ .unsent ∧ page.mayWrite UNSAFE = true := by
    rw [Writes, Page.mayWrite_iff hfits]
  refine ⟨hkeeps.ready, by rw [hkeeps.version]; exact hversion, ?_, ?_⟩
  · rw [hpages]
    by_cases hsent : fault ≠ .unsent
    · rw [if_pos hsent, writable_cons]
      by_cases hmay : page.mayWrite UNSAFE = true
      · rw [if_pos (hwrites.mpr ⟨hsent, hmay⟩), if_pos hmay]
        rfl
      · rw [if_neg (fun hw => hmay (hwrites.mp hw).2), if_neg hmay]
        rfl
    · rw [if_neg (fun hw => hsent (hwrites.mp hw).1), if_neg hsent]
      rfl
  · rw [hreply]
    by_cases hintact : fault = .intact
    · have hsent : fault ≠ .unsent := by
        rw [hintact]
        decide
      by_cases hmay : page.mayWrite UNSAFE = true
      · rw [if_pos ⟨hintact, hwrites.mpr ⟨hsent, hmay⟩⟩, writePageToDevice_accepts hfits, hmay,
          decide_eq_true hintact]
        rfl
      · rw [if_neg (fun hw => hmay (hwrites.mp hw.2).2), Bool.eq_false_iff.mpr hmay, Bool.and_false]
        rfl
    · rw [if_neg (fun hw => hintact hw.1), decide_eq_false hintact]
      rfl

/-- What a run has written: the first `k` pages, as far as they may be written. -/
structure Wrote (run : FlashRun) (pages : List Page) (rig rig' : Rig) (ending : Ending) (k : ℕ) :
    Prop where
  le : k ≤ pages.length
  flash : rig'.mcu.pageBytes =
    PageStore.write rig.mcu.pageBytes (writable run.UNSAFE (pages.take k))
  completed : ending = .completed → k = pages.length ∧
    ∀ page ∈ pages, page.mayWrite run.UNSAFE = true ∨ page.start = 0
  fatal : ending ≠ .fatal
  failed : ending = .failed → (∀ fault, run.allowed fault → fault = .intact) →
    ∃ page ∈ pages, page.mayWrite run.UNSAFE = false ∧ page.start ≠ 0

theorem Wrote.stop {run : FlashRun} {pages : List Page} {rig rig' : Rig} {ending : Ending} {k : ℕ}
    (hle : k ≤ pages.length)
    (hflash : rig'.mcu.pageBytes =
      PageStore.write rig.mcu.pageBytes (writable run.UNSAFE (pages.take k)))
    (hending : ending = .interrupted ∨ ending = .failed)
    (hfailed : ending = .failed → (∀ fault, run.allowed fault → fault = .intact) →
      ∃ page ∈ pages, page.mayWrite run.UNSAFE = false ∧ page.start ≠ 0) :
    Wrote run pages rig rig' ending k := by
  refine ⟨hle, hflash, fun h => ?_, fun h => ?_, hfailed⟩
  · rw [h] at hending
    rcases hending with hc | hc <;> cases hc
  · rw [h] at hending
    rcases hending with hc | hc <;> cases hc

/-- One page in front of a run. -/
theorem Wrote.cons {run : FlashRun} {page : Page} {pages : List Page} {rig rig₁ rig' : Rig}
    {ending : Ending} {k : ℕ} (h : Wrote run pages rig₁ rig' ending k)
    (hflash : rig₁.mcu.pageBytes = PageStore.write rig.mcu.pageBytes (writable run.UNSAFE [page]))
    (hpage : page.mayWrite run.UNSAFE = true ∨ page.start = 0) :
    Wrote run (page :: pages) rig rig' ending (k + 1) where
  le := Nat.succ_le_succ h.le
  flash := by
    rw [h.flash, hflash, List.take_succ_cons, writable_cons, ← PageStore.write_append, writable_cons]
    congr 2
    exact List.append_nil _
  completed := fun he => by
    obtain ⟨hk, hpages⟩ := h.completed he
    exact ⟨congrArg (· + 1) hk, List.forall_mem_cons.mpr ⟨hpage, hpages⟩⟩
  fatal := h.fatal
  failed := fun he hintact => by
    obtain ⟨q, hq, hrefused⟩ := h.failed he hintact
    exact ⟨q, List.mem_cons_of_mem _ hq, hrefused⟩

/-- **A run writes the pages in their order**, and stops somewhere. -/
theorem writesPages_wrote (htarget : target.version = IG_PROTOCOL_VERSION) {run : FlashRun} {count : ℕ}
    {pages : List Page} (hfits : ∀ page ∈ pages, page.Fits) {rig rig' : Rig} {ending : Ending}
    (hready : rig.Ready) (hversion : 0x200 ≤ rig.device.idev.version)
    (h : WritesPages fl target run count (pages.map (·.prepared run.UNSAFE)) rig rig' ending) :
    rig'.Ready ∧ 0x200 ≤ rig'.device.idev.version ∧ ∃ k, Wrote run pages rig rig' ending k := by
  induction pages generalizing count rig with
  | nil =>
      cases h with
      | interrupted =>
          exact ⟨hready, hversion, 0, .stop (Nat.le_refl _) rfl (.inl rfl) (fun he => by cases he)⟩
      | completed =>
          refine ⟨hready, hversion, 0, ⟨Nat.le_refl _, rfl, fun _ => ⟨rfl, List.forall_mem_nil _⟩,
            (by decide), fun he => ?_⟩⟩
          cases he
  | cons page pages ih =>
      obtain ⟨hpage, hrest⟩ := List.forall_mem_cons.mp hfits
      cases h with
      | interrupted =>
          exact ⟨hready, hversion, 0, .stop (Nat.zero_le _) rfl (.inl rfl) (fun he => by cases he)⟩
      | skipped hreboot hzero hdry hafter =>
          obtain ⟨hready₁, hversion₁, hflash₁⟩ := hreboot.keeps hready hversion
          obtain ⟨hready', hversion', k, hwrote⟩ := ih hrest hready₁ hversion₁ hafter
          have hnot : page.mayWrite run.UNSAFE = false := by
            have hstart : page.start = 0 := hzero
            rw [Page.mayWrite, hdry, hstart]
            rfl
          refine ⟨hready', hversion', k + 1, hwrote.cons ?_ (.inr hzero)⟩
          rw [writable_cons, if_neg (by rw [hnot]; exact Bool.false_ne_true), hflash₁]
          rfl
      | written hreboot hgoes hfault hexchange hdone hafter =>
          obtain ⟨hready₁, hversion₁, hflash₁⟩ := hreboot.keeps hready hversion
          obtain ⟨hready₂, hversion₂, hflash₂, hresult⟩ := exchange_page
            run.bytesAreStr htarget hpage hready₁ hversion₁ hexchange
          obtain ⟨hready', hversion', k, hwrote⟩ := ih hrest hready₂ hversion₂ hafter
          rw [hdone, Option.some.injEq, eq_comm, Bool.and_eq_true, decide_eq_true_eq] at hresult
          obtain ⟨rfl, hmay⟩ := hresult
          refine ⟨hready', hversion', k + 1, hwrote.cons ?_ (.inl hmay)⟩
          rw [hflash₂, hflash₁, if_pos (by decide)]
      | stopped hreboot hgoes hfault hexchange hdone =>
          rename_i fault reply
          obtain ⟨hready₁, hversion₁, hflash₁⟩ := hreboot.keeps hready hversion
          obtain ⟨hready', hversion', hflash', hresult⟩ := exchange_page
            run.bytesAreStr htarget hpage hready₁ hversion₁ hexchange
          rw [hresult] at hdone
          have hsome : ¬writePageToDevice run.bytesAreStr (page.prepared run.UNSAFE) reply = none := by
            rw [hresult]
            exact Option.some_ne_none _
          rw [if_neg hsome]
          refine ⟨hready', hversion', if fault ≠ .unsent then 1 else 0, .stop ?_ ?_ (.inr rfl) ?_⟩
          · split_ifs
            · exact Nat.succ_le_succ (Nat.zero_le _)
            · exact Nat.zero_le _
          · rw [hflash', hflash₁]
            split_ifs <;> rfl
          · rintro - hintact
            rw [hintact _ hfault, decide_eq_true rfl, Bool.true_and] at hdone
            have hnot : page.mayWrite run.UNSAFE = false := by
              rw [Bool.eq_false_iff]
              exact fun hmay => hdone (congrArg some hmay)
            refine ⟨page, List.mem_cons_self .., hnot, fun hzero => hgoes ⟨hzero, ?_⟩⟩
            rw [Page.mayWrite, Bool.or_eq_false_iff] at hnot
            exact hnot.1

/-- **Nothing else stops a run**: where nothing gets lost, some run completes. -/
theorem writesPages_exists (flasher : Flasher) (htarget : target.version = IG_PROTOCOL_VERSION)
    {run : FlashRun} (hintact : run.allowed .intact) {pages : List Page}
    (hfits : ∀ page ∈ pages, page.Fits)
    (hgoes : ∀ page ∈ pages, page.mayWrite run.UNSAFE = true ∨ page.start = 0) (count : ℕ)
    {rig : Rig} (hready : rig.Ready) (hversion : 0x200 ≤ rig.device.idev.version) :
    ∃ rig', WritesPages fl target run count (pages.map (·.prepared run.UNSAFE)) rig rig'
      .completed := by
  induction pages generalizing count rig with
  | nil => exact ⟨rig, .completed count rig⟩
  | cons page pages ih =>
      obtain ⟨hpage, hfits⟩ := List.forall_mem_cons.mp hfits
      obtain ⟨hgo, hgoes⟩ := List.forall_mem_cons.mp hgoes
      have hreboot : RebootsAt run.rebootPage (count + 1) rig rig := by
        unfold RebootsAt
        split_ifs
        · exact ⟨rfl, hready, hversion⟩
        · rfl
      by_cases hskip : page.start = 0 ∧ run.UNSAFE = false
      · obtain ⟨rig', hrest⟩ := ih hfits hgoes (count + 1) hready hversion
        exact ⟨rig', .skipped hreboot hskip.1 hskip.2 hrest⟩
      · have hmay : page.mayWrite run.UNSAFE = true := by
          obtain h | hzero := hgo
          · exact h
          · rw [Page.mayWrite, Bool.or_eq_true]
            left
            rw [← Bool.not_eq_false]
            exact fun hdry => hskip ⟨hzero, hdry⟩
        obtain ⟨rig₁, reply, hexchange⟩ := @exchange_exists fl _ flasher.programsPages target
          .intact rig page.entry.1 (if run.UNSAFE then 0x42 else 0)
          ((pageSum page.bytes).extractLsb' 8 8) ((pageSum page.bytes).extractLsb' 0 8) page.bytes
          htarget hversion hready hpage.2
        obtain ⟨hready₁, hversion₁, -, hdone⟩ :=
          exchange_page run.bytesAreStr htarget hpage hready hversion hexchange
        obtain ⟨rig', hrest⟩ := ih hfits hgoes (count + 1) hready₁ hversion₁
        rw [hmay] at hdone
        exact ⟨rig', .written hreboot hskip hintact hexchange hdone hrest⟩

end IguanaIR
