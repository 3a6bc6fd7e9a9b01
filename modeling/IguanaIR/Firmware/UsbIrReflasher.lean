import IguanaIR.Firmware.Flash
import IguanaIR.Firmware.MainLoop
import IguanaIR.PageTransfer

/-! # The flashing firmware

`main.asm` of `usb_ir_reflasher`, the firmware that is put on a device to replace its loader.  It
has no body, and its `main_prog` is an older one than the loader's: the block is written whatever
its checksum is, and also when reading it has failed.

`ProgramsPages` is what both do with a block that arrives as it was sent, and all that the host
relies on. -/

namespace IguanaIR.Firmware

/-! ### The code -/

namespace UsbIrReflasher

def VERSION_ID_HIGH : Byte := 0xFF

def mainGetversion (m : Mcu) : Option Mcu :=
  let m := (m.setCtl CCODE IG_DEV_GETVERSION).setCtl CDATA 0
  writeControl (CTL_BASE_SIZE + 2) (m.setCtl (CDATA + 1) VERSION_ID_HIGH)

/-- Throw an error. -/
def mainProgError (m : Mcu) : Option Mcu :=
  writeControl CTL_BASE_SIZE (m.setCtl CCODE IG_DEV_INVALID_ARG)

/-- The flash block address is in `tmp3` here. -/
def writePage (m : Mcu) : Option Mcu :=
  let m := execSsc .write (execSsc .erase m)
  writeControl (CTL_BASE_SIZE + 2) (loadSum ((sumPage m).setCtl CCODE IG_DEV_WRITEBLOCK))

/-- Protect the first 48 pages with a special code. -/
def mainProg (m : Mcu) : Option Mcu := do
  let m := (m.write tmp3 (m.ctl CDATA)).setCtl CDATA (BitVec.ofNat 8 FLASH_BLOCK_SIZE)
  -- whether the block was read is not looked at
  let (m, _) ← readBuffer m
  if m.ctl (CDATA + 1) = MAGIC_WRITE_BYTE ∨ 48 ≤ (m.ram tmp3).toNat then writePage m
  else mainProgError m

def mainRecv (m : Mcu) : Option Mcu := do
  let (m, code) ← readControl m
  if code = 0 then some m
  else if code = IG_DEV_GETVERSION then mainGetversion m
  else if code = IG_DEV_WRITEBLOCK then mainProg m
  else if code = IG_DEV_RESET then none
  else some m

/-- One round of `main_loop`; there is no body to call. -/
def mainLoop (m : Mcu) : Option Mcu :=
  if halted m then none else if checkRead m then mainRecv m else some m

end UsbIrReflasher

/-! ### Programming pages -/

/-- What the host relies on: a block whose checksum fits is written or refused, and the reply
says which. -/
structure ProgramsPages (recv : Mcu → Option Mcu) : Prop where
  programs : ∀ {m : Mcu} {page magic : Byte} {data queue : List (List Byte)}, ¬halted m →
    (∀ p ∈ data ++ queue, p ≠ []) → data.flatten.length = FLASH_BLOCK_SIZE →
    m.out = controlPacket IG_DEV_WRITEBLOCK ([page, magic] ++ sumBytes data.flatten) ::
      (data ++ queue) →
    ∃ m', recv m = some m' ∧ m'.out = queue ∧ ¬halted m' ∧
      if magic = MAGIC_WRITE_BYTE ∨ 48 ≤ page.toNat then
        m'.pageBytes = Function.update m.pageBytes page data.flatten ∧
          m'.sent = m.sent ++ [replyHeader IG_DEV_WRITEBLOCK ++ sumBytes data.flatten]
      else m'.pageBytes = m.pageBytes ∧ m'.sent = m.sent ++ [replyHeader IG_DEV_INVALID_ARG]

theorem Mcu.pageBytes_congr {m m' : Mcu} (h : m'.flash = m.flash) : m'.pageBytes = m.pageBytes := by
  funext page
  unfold pageBytes
  rw [h]

/-- The bytes of the pages behind one that was written. -/
theorem Mcu.pageBytes_setPage {m : Mcu} {page : Byte} {bytes : ℕ → Byte} {block : List Byte}
    (hlen : block.length = FLASH_BLOCK_SIZE)
    (hbytes : ∀ i, ∀ h : i < block.length, bytes i = block[i]) :
    (m.setPage page bytes).pageBytes = Function.update m.pageBytes page block := by
  funext x
  by_cases hx : x = page
  · subst hx
    rw [Function.update_self]
    apply PageHolds.pageBytes _ hlen
    intro i hi
    rw [setPage_flash, hbytes i hi]
  · rw [Function.update_of_ne hx]
    unfold pageBytes setPage
    simp only [if_neg hx]

/-- The control packet of a block has been read. -/
structure BlockControl (page magic : Byte) (sum : List Byte) (queue : List (List Byte))
    (m m' : Mcu) : Prop where
  rest : ∃ ram, m' = { m with ram := ram, out := queue }
  running : ¬halted m'
  page : m'.ctl CDATA = page
  magic : m'.ctl (CDATA + 1) = magic
  sum : sum = [m'.ctl (CDATA + 2), m'.ctl (CDATA + 3)]

theorem readControl_block {m : Mcu} {page magic : Byte} {sum : List Byte}
    {queue : List (List Byte)} (hsum : sum.length = 2) (hrun : ¬halted m)
    (hout : m.out = controlPacket IG_DEV_WRITEBLOCK ([page, magic] ++ sum) :: queue) :
    ∃ m', readControl m = some (m', IG_DEV_WRITEBLOCK) ∧
      BlockControl page magic sum queue m m' := by
  match sum, hsum with
  | [high, low], _ =>
    obtain ⟨m', hread, hrest, -, hargs, hbelow⟩ :=
      @readControl_some m IG_DEV_WRITEBLOCK [page, magic, high, low] queue (Nat.le_refl 4) hout
    refine ⟨m', hread, hrest, ?_, hargs 0 (by decide), hargs 1 (by decide), ?_⟩
    · unfold halted
      rw [hbelow loaderFlags (by decide) (by decide) (by decide)]
      exact hrun
    · rw [show m'.ctl (CDATA + 2) = high from hargs 2 (by decide),
        show m'.ctl (CDATA + 3) = low from hargs 3 (by decide)]

/-! ### The loader -/

section

variable {m : Mcu} {block : List Byte}

/-- The page is written, with what a round leaves of the state. -/
theorem writePage_programs (hrun : ¬halted m) (hblock : Stored m buffer block)
    (hlen : block.length = FLASH_BLOCK_SIZE) :
    ∃ m', writePage m = some m' ∧ m'.out = m.out ∧ ¬halted m' ∧
      m'.pageBytes = Function.update m.pageBytes (m.ctl CDATA) block ∧
      m'.sent = m.sent ++ [replyHeader IG_DEV_WRITEBLOCK ++ sumBytes block] := by
  obtain ⟨ram, bytes, hwrite, hbytes, hflags⟩ := writePage_eq hrun hblock hlen
  refine ⟨_, hwrite, rfl, ?_, Mcu.pageBytes_setPage hlen hbytes, rfl⟩
  change ¬ram loaderFlags &&& FLAG_HALTED ≠ 0
  rw [hflags]
  exact hrun

/-- An error is sent. -/
theorem mainProgError_refuses (hrun : ¬halted m) :
    ∃ m', mainProgError m = some m' ∧ m'.out = m.out ∧ ¬halted m' ∧ m'.flash = m.flash ∧
      m'.sent = m.sent ++ [replyHeader IG_DEV_INVALID_ARG] := by
  obtain ⟨ram, hwrite, hflags⟩ := writeControl_eq (m := m.setCtl CCODE IG_DEV_INVALID_ARG) hrun
    (Nat.zero_le 4)
  refine ⟨_, hwrite, rfl, ?_, rfl, congrArg (m.sent ++ [·]) (List.append_nil _)⟩
  change ¬ram loaderFlags &&& FLAG_HALTED ≠ 0
  rw [hflags]
  exact hrun

end

/-- What is left of a block that was received, behind its page and its checksum. -/
theorem BlockRead.control {page magic : Byte} {sum block : List Byte}
    {queue queue' : List (List Byte)} {m m₁ m₂ : Mcu} (h : BlockRead block queue m₁ m₂)
    (hcontrol : BlockControl page magic sum queue' m m₁) :
    m₂.ctl CDATA = page ∧ m₂.ctl (CDATA + 1) = magic ∧
      sum = [m₂.ctl (CDATA + 2), m₂.ctl (CDATA + 3)] := by
  refine ⟨?_, ?_, ?_⟩
  · rw [← hcontrol.page]
    exact h.ctl 0 (by decide)
  · rw [← hcontrol.magic]
    exact h.ctl 1 (by decide)
  · rw [hcontrol.sum, show m₂.ctl (CDATA + 2) = m₁.ctl (CDATA + 2) from h.ctl 2 (by decide),
      show m₂.ctl (CDATA + 3) = m₁.ctl (CDATA + 3) from h.ctl 3 (by decide)]

/-- With a checksum that fits, checking it changes nothing but the variables of the sum. -/
theorem checkPage_programs {m : Mcu} {block : List Byte} (hrun : ¬halted m)
    (hblock : Stored m buffer block) (hlen : block.length = FLASH_BLOCK_SIZE)
    (hfits : ChecksumFits m block) :
    ∃ m', checkPage m = some m' ∧ m'.out = m.out ∧ ¬halted m' ∧
      m'.pageBytes = Function.update m.pageBytes (m.ctl CDATA) block ∧
      m'.sent = m.sent ++ [replyHeader IG_DEV_WRITEBLOCK ++ sumBytes block] := by
  rw [checkPage_eq hblock hlen]
  split_ifs with hzero hsum
  · exact writePage_programs hrun hblock hlen
  · have hblock' : Stored (m.setSum (pageSum block)) buffer block :=
      (hblock.write_high (by rw [hlen]; decide) (by decide) _).write_high (by rw [hlen]; decide)
        (by decide) _
    exact writePage_programs (m := m.setSum (pageSum block)) hrun hblock' hlen
  · exact absurd hfits (not_or.mpr ⟨hzero, hsum⟩)

/-- The checksum in the packet is that of the block, or there is none. -/
def ChecksumAccepted (sum block : List Byte) : Prop := sum = [0, 0] ∨ sumBytes block = sum

instance (sum block : List Byte) : Decidable (ChecksumAccepted sum block) :=
  inferInstanceAs (Decidable (_ ∨ _))

/-- The loader checks the page and the checksum once the block has been read. -/
theorem mainRecv_reads (others : Byte → Mcu → Option Mcu) {m : Mcu} {page magic : Byte}
    {sum : List Byte} {data queue : List (List Byte)} (hsum : sum.length = 2) (hrun : ¬halted m)
    (hne : ∀ p ∈ data ++ queue, p ≠ []) (hlen : data.flatten.length = FLASH_BLOCK_SIZE)
    (hout : m.out = controlPacket IG_DEV_WRITEBLOCK ([page, magic] ++ sum) :: (data ++ queue)) :
    ∃ m', mainRecv others m =
        (if magic = MAGIC_WRITE_BYTE ∨ 48 ≤ page.toNat then checkPage m' else mainProgError m') ∧
      (∃ ram, m' = { m with ram := ram, out := queue }) ∧ Stored m' buffer data.flatten ∧
      ¬halted m' ∧ m'.ctl CDATA = page ∧ sum = [m'.ctl (CDATA + 2), m'.ctl (CDATA + 3)] := by
  obtain ⟨m₁, hread, hcontrol⟩ := readControl_block hsum hrun hout
  obtain ⟨ram₁, hm₁⟩ := hcontrol.rest
  obtain ⟨m₂, hbuffer, hblock⟩ :=
    readBufferReal_page hcontrol.running hne hlen (show m₁.out = data ++ queue by rw [hm₁])
  obtain ⟨ram₂, hm₂⟩ := hblock.rest
  obtain ⟨hpage, hmagic, hsums⟩ := hblock.control hcontrol
  refine ⟨m₂, ?_, ⟨ram₂, ?_⟩, hblock.stored, hblock.running, hpage, hsums⟩
  · have hprog : mainRecv others m = mainProg m₁ := by
      simp only [mainRecv, hread, Option.bind_eq_bind, Option.bind_some]
      rfl
    rw [hprog]
    simp only [mainProg, hbuffer, Option.bind_eq_bind, Option.bind_some, true_and, hpage, hmagic]
  · rw [hm₂, hm₁]

/-- **The loader writes a block** whose page is not protected and whose checksum is accepted. -/
theorem mainRecv_loader (others : Byte → Mcu → Option Mcu) {m : Mcu} {page magic : Byte}
    {sum : List Byte} {data queue : List (List Byte)} (hsum : sum.length = 2) (hrun : ¬halted m)
    (hne : ∀ p ∈ data ++ queue, p ≠ []) (hlen : data.flatten.length = FLASH_BLOCK_SIZE)
    (hout : m.out = controlPacket IG_DEV_WRITEBLOCK ([page, magic] ++ sum) :: (data ++ queue)) :
    ∃ m', mainRecv others m = some m' ∧ m'.out = queue ∧
      if magic = MAGIC_WRITE_BYTE ∨ 48 ≤ page.toNat then
        if ChecksumAccepted sum data.flatten then
          ¬halted m' ∧ m'.pageBytes = Function.update m.pageBytes page data.flatten ∧
            m'.sent = m.sent ++ [replyHeader IG_DEV_WRITEBLOCK ++ sumBytes data.flatten]
        else m'.pageBytes = m.pageBytes ∧
          ∃ bytes, m'.sent = m.sent ++ [replyHeader IG_DEV_BAD_CHKSUM ++ bytes]
      else ¬halted m' ∧ m'.pageBytes = m.pageBytes ∧
        m'.sent = m.sent ++ [replyHeader IG_DEV_INVALID_ARG] := by
  obtain ⟨m₁, hrecv, ⟨ram, hm₁⟩, hstored, hrun₁, hpage, hsums⟩ :=
    mainRecv_reads others hsum hrun hne hlen hout
  have hsent : m₁.sent = m.sent := by rw [hm₁]
  have hflash : m₁.flash = m.flash := by rw [hm₁]
  have hqueue : m₁.out = queue := by rw [hm₁]
  rw [hrecv]
  split_ifs with hopen haccepted
  · have hfits : ChecksumFits m₁ data.flatten := by
      obtain hzero | hsame := haccepted
      · rw [hsums, List.cons.injEq, List.cons.injEq] at hzero
        exact .inl ⟨hzero.1, hzero.2.1⟩
      · exact .inr (hsame.trans hsums)
    obtain ⟨m', hcheck, hout', hrun', hpages, hsent'⟩ := checkPage_programs hrun₁ hstored hlen hfits
    rw [Mcu.pageBytes_congr hflash, hpage] at hpages
    exact ⟨m', hcheck, hout'.trans hqueue, hrun', hpages, hsent'.trans (by rw [hsent])⟩
  · have hfits : ¬ChecksumFits m₁ data.flatten := by
      rintro (⟨h₂, h₃⟩ | hsame)
      · exact haccepted (.inl (by rw [hsums, h₂, h₃]))
      · exact haccepted (.inr (hsame.trans hsums.symm))
    obtain ⟨ram', bytes, hcheck⟩ := checkPage_refuses hrun₁ hstored hlen hfits
    exact ⟨_, hcheck, hqueue, Mcu.pageBytes_congr hflash, bytes, congrArg (· ++ _) hsent⟩
  · obtain ⟨m', herror, hout', hrun', hflash', hsent'⟩ := mainProgError_refuses hrun₁
    exact ⟨m', herror, hout'.trans hqueue, hrun', Mcu.pageBytes_congr (hflash'.trans hflash),
      hsent'.trans (by rw [hsent])⟩

theorem programsPages_loader (others : Byte → Mcu → Option Mcu) :
    ProgramsPages (mainRecv others) where
  programs := by
    intro m page magic data queue hrun hne hlen hout
    obtain ⟨m', hrecv, hqueue, hdone⟩ := mainRecv_loader others rfl hrun hne hlen hout
    rw [if_pos (show ChecksumAccepted (sumBytes data.flatten) data.flatten from .inr rfl)] at hdone
    refine ⟨m', hrecv, hqueue, ?_, ?_⟩
    · split_ifs at hdone
      · exact hdone.1
      · exact hdone.1
    · split_ifs at hdone ⊢
      · exact hdone.2
      · exact hdone.2

/-! ### The flashing firmware -/

namespace UsbIrReflasher

/-- The parameters of the supervisory call are written over the first data byte of the control
packet, and the page is in `tmp3` already. -/
theorem sscParameters_setCtl (f : Ssc) (m : Mcu) :
    sscParameters f ((m.setCtl CDATA (m.ram tmp3)).write tmp3 (m.ram tmp3)) = sscParameters f m := by
  have hclock : controlPkt + CDATA = CLOCK := by decide
  have htmp3 : tmp3 ≠ tmp1 ∧ tmp3 ≠ KEY1 ∧ tmp3 ≠ KEY2 := by decide
  have hram : (sscParameters f ((m.setCtl CDATA (m.ram tmp3)).write tmp3 (m.ram tmp3))).ram =
      (sscParameters f m).ram := by
    funext x
    simp only [sscParameters, Mcu.setCtl, hclock, Mcu.write_ram, if_neg htmp3.1,
      if_neg htmp3.2.1, if_neg htmp3.2.2, if_true]
    by_cases h : x = CLOCK
    · rw [if_pos h, if_pos h]
    · by_cases h' : x = tmp3
      · subst h'
        rfl
      · simp only [if_neg h, if_neg h']
        rfl
  calc sscParameters f ((m.setCtl CDATA (m.ram tmp3)).write tmp3 (m.ram tmp3))
      = { m with ram := (sscParameters f
          ((m.setCtl CDATA (m.ram tmp3)).write tmp3 (m.ram tmp3))).ram } := rfl
    _ = { m with ram := (sscParameters f m).ram } := by rw [hram]
    _ = sscParameters f m := rfl

/-- Its `write_page` is that of the loader, which takes the page from the control packet. -/
theorem writePage_eq_loader (m : Mcu) :
    writePage m = Firmware.writePage (m.setCtl CDATA (m.ram tmp3)) := by
  have hpage : (m.setCtl CDATA (m.ram tmp3)).ctl CDATA = m.ram tmp3 := Mcu.write_same _ _ _
  have herase : execSsc .erase ((m.setCtl CDATA (m.ram tmp3)).write tmp3
      ((m.setCtl CDATA (m.ram tmp3)).ctl CDATA)) = execSsc .erase m := by
    rw [hpage]
    unfold execSsc
    rw [sscParameters_setCtl]
  rw [writePage, Firmware.writePage, herase]

/-- **A block is written whatever its checksum is**, unless its page is protected. -/
theorem mainRecv_block {m : Mcu} {page magic : Byte} {sum : List Byte}
    {data queue : List (List Byte)} (hsum : sum.length = 2) (hrun : ¬halted m)
    (hne : ∀ p ∈ data ++ queue, p ≠ []) (hlen : data.flatten.length = FLASH_BLOCK_SIZE)
    (hout : m.out = controlPacket IG_DEV_WRITEBLOCK ([page, magic] ++ sum) :: (data ++ queue)) :
    ∃ m', mainRecv m = some m' ∧ m'.out = queue ∧ ¬halted m' ∧
      if magic = MAGIC_WRITE_BYTE ∨ 48 ≤ page.toNat then
        m'.pageBytes = Function.update m.pageBytes page data.flatten ∧
          m'.sent = m.sent ++ [replyHeader IG_DEV_WRITEBLOCK ++ sumBytes data.flatten]
      else m'.pageBytes = m.pageBytes ∧ m'.sent = m.sent ++ [replyHeader IG_DEV_INVALID_ARG] := by
  obtain ⟨m₁, hread, hcontrol⟩ := readControl_block hsum hrun hout
  obtain ⟨ram₁, hm₁⟩ := hcontrol.rest
  obtain ⟨m₂, hm₂⟩ : ∃ m₂, m₂ = (m₁.write tmp3 (m₁.ctl CDATA)).setCtl CDATA
    (BitVec.ofNat 8 FLASH_BLOCK_SIZE) := ⟨_, rfl⟩
  have hrun₂ : ¬halted m₂ := by
    rw [hm₂]
    exact hcontrol.running
  have hcount : m₂.ctl CDATA = BitVec.ofNat 8 FLASH_BLOCK_SIZE := by
    rw [hm₂]
    exact Mcu.write_same _ _ _
  have htmp3 : m₂.ram tmp3 = page := by
    rw [hm₂, ← hcontrol.page]
    exact Mcu.write_ne _ _ (by decide)
  have hmagic : m₂.ctl (CDATA + 1) = magic := by
    rw [hm₂, ← hcontrol.magic]
    rfl
  have hout₂ : m₂.out = data ++ queue := by
    rw [hm₂]
    change m₁.out = _
    rw [hm₁]
  obtain ⟨m₃, hbuffer, hblock⟩ := readBufferReal_page hrun₂ hne hlen hout₂
  have hpage₃ : m₃.ram tmp3 = page := by
    obtain ⟨ram, hread', -, -, hram⟩ := readBufferReal_block
      (n := BitVec.ofNat 8 FLASH_BLOCK_SIZE) hrun₂ (by decide) (by decide) hne hlen hout₂
    obtain ⟨rfl, -⟩ := Prod.mk.inj (Option.some.inj (hbuffer.symm.trans hread'))
    rw [← htmp3]
    exact hram tmp3 (by decide)
  have hmagic₃ : m₃.ctl (CDATA + 1) = magic := by
    rw [← hmagic]
    exact hblock.ctl 1 (by decide)
  have hrecv : mainRecv m = if magic = MAGIC_WRITE_BYTE ∨ 48 ≤ page.toNat then
      writePage m₃ else mainProgError m₃ := by
    have hprog : mainRecv m = mainProg m₁ := by
      simp only [mainRecv, hread, Option.bind_eq_bind, Option.bind_some]
      rfl
    have hread₃ : readBuffer m₂ = some (m₃, true) := by rw [readBuffer, hcount, hbuffer]
    rw [hprog]
    simp only [mainProg, ← hm₂, hread₃, Option.bind_eq_bind, Option.bind_some, hpage₃, hmagic₃]
  obtain ⟨ram₃, hm₃⟩ := hblock.rest
  have hsent : m₃.sent = m.sent := by rw [hm₃, hm₂, Mcu.setCtl]; change m₁.sent = _; rw [hm₁]
  have hflash : m₃.flash = m.flash := by rw [hm₃, hm₂, Mcu.setCtl]; change m₁.flash = _; rw [hm₁]
  have hqueue : m₃.out = queue := by rw [hm₃]
  rw [hrecv]
  split_ifs with hopen
  · obtain ⟨m₄, hm₄⟩ : ∃ m₄, m₄ = m₃.setCtl CDATA (m₃.ram tmp3) := ⟨_, rfl⟩
    have hstored : Stored m₄ buffer data.flatten := by
      rw [hm₄]
      exact hblock.stored.write_high (by rw [hlen]; decide) (by decide) _
    have hrun₄ : ¬halted m₄ := by
      rw [hm₄]
      exact hblock.running
    obtain ⟨m', hwrite, hout', hrun', hpages, hsent'⟩ :=
      writePage_programs hrun₄ hstored hlen
    have hpage₄ : m₄.ctl CDATA = page := by
      rw [hm₄, ← hpage₃]
      exact Mcu.write_same _ _ _
    rw [hpage₄, Mcu.pageBytes_congr (show m₄.flash = m.flash by rw [hm₄]; exact hflash)] at hpages
    refine ⟨m', ?_, ?_, hrun', hpages, ?_⟩
    · rw [writePage_eq_loader, ← hm₄, hwrite]
    · rw [hout', hm₄]
      exact hqueue
    · rw [hsent', hm₄]
      exact congrArg (· ++ _) hsent
  · obtain ⟨m', herror, hout', hrun', hflash', hsent'⟩ :=
      mainProgError_refuses hblock.running
    exact ⟨m', herror, hout'.trans hqueue, hrun', Mcu.pageBytes_congr (hflash'.trans hflash),
      hsent'.trans (by rw [hsent])⟩

theorem programsPages : ProgramsPages mainRecv where
  programs := fun hrun hne hlen hout => mainRecv_block rfl hrun hne hlen hout

end UsbIrReflasher

/-! ### Both of them -/

/-- **The two firmwares agree** on a block exactly when the loader does not refuse it for its
checksum: the flashing firmware writes such a block, too. -/
theorem flashers_agree_iff (others : Byte → Mcu → Option Mcu) {m : Mcu} {page magic : Byte}
    {sum : List Byte} {data queue : List (List Byte)} (hsum : sum.length = 2) (hrun : ¬halted m)
    (hne : ∀ p ∈ data ++ queue, p ≠ []) (hlen : data.flatten.length = FLASH_BLOCK_SIZE)
    (hout : m.out = controlPacket IG_DEV_WRITEBLOCK ([page, magic] ++ sum) :: (data ++ queue)) :
    ∃ m₁ m₂, mainRecv others m = some m₁ ∧ UsbIrReflasher.mainRecv m = some m₂ ∧
      m₁.out = queue ∧ m₂.out = queue ∧
      ((m₁.pageBytes = m₂.pageBytes ∧ m₁.sent = m₂.sent) ↔
        (magic = MAGIC_WRITE_BYTE ∨ 48 ≤ page.toNat → ChecksumAccepted sum data.flatten)) := by
  obtain ⟨m₁, hloader, hout₁, hdone₁⟩ := mainRecv_loader others hsum hrun hne hlen hout
  obtain ⟨m₂, hflasher, hout₂, -, hdone₂⟩ := UsbIrReflasher.mainRecv_block hsum hrun hne hlen hout
  refine ⟨m₁, m₂, hloader, hflasher, hout₁, hout₂, ?_⟩
  by_cases hopen : magic = MAGIC_WRITE_BYTE ∨ 48 ≤ page.toNat
  · rw [if_pos hopen] at hdone₁ hdone₂
    by_cases haccepted : ChecksumAccepted sum data.flatten
    · rw [if_pos haccepted] at hdone₁
      refine iff_of_true ⟨?_, ?_⟩ (fun _ => haccepted)
      · rw [hdone₁.2.1, hdone₂.1]
      · rw [hdone₁.2.2, hdone₂.2]
    · rw [if_neg haccepted] at hdone₁
      obtain ⟨-, bytes, hsent⟩ := hdone₁
      refine iff_of_false ?_ (fun h => haccepted (h hopen))
      -- the codes of the two replies differ
      rintro ⟨-, hsame⟩
      rw [hsent, hdone₂.2, List.append_cancel_left_eq] at hsame
      simp [replyHeader, IG_DEV_BAD_CHKSUM, IG_DEV_WRITEBLOCK] at hsame
  · rw [if_neg hopen] at hdone₁ hdone₂
    refine iff_of_true ⟨?_, ?_⟩ (fun h => absurd h hopen)
    · rw [hdone₁.2.1, hdone₂.1]
    · rw [hdone₁.2.2, hdone₂.2]

/-- A block of halts for page 48 that lost a bit on the way. -/
theorem flashers_agree_iff_lost :
    ∃ m₁ m₂, mainRecv (fun _ => some) { Mcu.cleared 0 with
        out := [controlPacket IG_DEV_WRITEBLOCK [48, 0, 0x0C, 0x00],
          List.replicate 63 0x30 ++ [0x20]] } = some m₁ ∧
      UsbIrReflasher.mainRecv { Mcu.cleared 0 with
        out := [controlPacket IG_DEV_WRITEBLOCK [48, 0, 0x0C, 0x00],
          List.replicate 63 0x30 ++ [0x20]] } = some m₂ ∧
      ¬(m₁.pageBytes = m₂.pageBytes ∧ m₁.sent = m₂.sent) := by
  obtain ⟨m₁, m₂, h₁, h₂, -, -, hiff⟩ := @flashers_agree_iff (fun _ => some)
    { Mcu.cleared 0 with
      out := [controlPacket IG_DEV_WRITEBLOCK [48, 0, 0x0C, 0x00],
        List.replicate 63 0x30 ++ [0x20]] } 48 0 [0x0C, 0x00] [List.replicate 63 0x30 ++ [0x20]] []
    rfl (by decide) (by decide) rfl rfl
  exact ⟨m₁, m₂, h₁, h₂, fun h => absurd (hiff.mp h (.inr (by decide))) (by decide +kernel)⟩

end IguanaIR.Firmware
