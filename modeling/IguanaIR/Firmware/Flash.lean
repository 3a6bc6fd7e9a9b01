import IguanaIR.Firmware.Replies

/-! # Writing the flash

What `main_prog` leaves in the flash and sends to the host.  `Stored` says which bytes are in
RAM from an address on; the block that `read_buffer` takes off the endpoint is stored in the
buffer, the supervisory call moves it to the page in `tmp3`, and the parameters of that call
destroy only bytes of the control packet that are not used behind it.

`mcsumLoop` is the checksum as the 8-bit code computes it. -/

namespace IguanaIR.Firmware

/-! ### The block that is read -/

/-- A block of `n` bytes is read when the packets hold exactly these. -/
theorem readBufferReal_block {m : Mcu} {n : Byte} {data queue : List (List Byte)} (hrun : ¬halted m)
    (hpos : n ≠ 0) (hle : n.toNat ≤ 150) (hne : ∀ p ∈ data ++ queue, p ≠ [])
    (hlen : data.flatten.length = n.toNat) (hout : m.out = data ++ queue) :
    ∃ ram, readBufferReal n m = some ({ m with ram := ram, out := queue }, true) ∧
      Stored { m with ram := ram } buffer data.flatten ∧
      ram loaderFlags = m.ram loaderFlags ||| FLAG_BODY_BUFCLR ∧
      ∀ x, tmp3 ≤ x → ram x = m.ram x := by
  have hqueue : Chunks.dropCover (consumed n.toNat) m.out = some queue := by
    rw [consumed, Nat.min_eq_left (by omega), hout, ← hlen]
    exact Chunks.dropCover_exact queue data (fun p hp => hne p (List.mem_append_left _ hp))
  obtain ⟨m', hread, hfilled⟩ := readBufferReal_copies hpos hrun (by rwa [hout]) hqueue
  obtain ⟨ram, rfl⟩ := hfilled.rest
  rw [if_pos hle] at hread
  refine ⟨ram, hread, ?_, hfilled.flags, fun x hx => ?_⟩
  · have hstored := hfilled.stored
    rwa [hout, List.flatten_append, Nat.min_eq_left hle, ← hlen, List.take_left] at hstored
  · obtain ⟨hflags, h₁, h₂⟩ := tmp3_le hx
    exact hfilled.outside (.inr hflags) h₁ h₂

/-! ### What is written to the host -/

theorem writePacket_eq {m : Mcu} (hrun : ¬halted m) (size data : Byte) :
    writePacket size data m = some { (m.write tmp1 size).write tmp2 data with
      sent := m.sent ++ [((m.write tmp1 size).write tmp2 data).readAll data size.toNat] } := by
  have hrun' : ¬halted ((m.write tmp1 size).write tmp2 data) := by
    unfold halted
    rw [Mcu.write_ne _ _ (by decide), Mcu.write_ne _ _ (by decide)]
    exact hrun
  unfold writePacket
  dsimp only
  rw [if_neg hrun']
  rfl

/-- The data bytes of the control packet. -/
def ctlData (m : Mcu) (k : ℕ) : List Byte :=
  (List.range k).map (fun i => m.ctl (CDATA + BitVec.ofNat 8 i))

theorem writeControl_eq {m : Mcu} (hrun : ¬halted m) {k : ℕ} (hk : k ≤ 4) :
    ∃ ram, writeControl (CTL_BASE_SIZE + BitVec.ofNat 8 k) m = some { m with
        ram := ram, sent := m.sent ++ [replyHeader (m.ctl CCODE) ++ ctlData m k] } ∧
      ram loaderFlags = m.ram loaderFlags := by
  obtain ⟨m₀, hm₀⟩ : ∃ m₀, m₀ = ((m.setCtl 0 0).setCtl 1 0).setCtl 2 TO_PC := ⟨_, rfl⟩
  have hflags : m₀.ram loaderFlags = m.ram loaderFlags := by
    rw [hm₀]
    rfl
  have hrun₀ : ¬halted m₀ := by
    unfold halted
    rw [hflags]
    exact hrun
  have hsize : (CTL_BASE_SIZE + BitVec.ofNat 8 k).toNat = 4 + k := by
    have hbase : CTL_BASE_SIZE.toNat = 4 := rfl
    rw [BitVec.toNat_add, hbase, BitVec.toNat_ofNat]
    omega
  have hpacket : ((m₀.write tmp1 (CTL_BASE_SIZE + BitVec.ofNat 8 k)).write tmp2
      controlPkt).readAll controlPkt (4 + k) = replyHeader (m.ctl CCODE) ++ ctlData m k := by
    rw [Mcu.readAll, List.range_add, List.map_append]
    congr 1
    · rw [hm₀]
      rfl
    · have hne : ∀ i < 4, ∀ x ∈ [tmp1, tmp2, controlPkt + 0, controlPkt + 1, controlPkt + 2],
          controlPkt + (CDATA + BitVec.ofNat 8 i) ≠ x := by decide
      have haddr : ∀ i < 4, controlPkt + BitVec.ofNat 8 (4 + i) =
          controlPkt + (CDATA + BitVec.ofNat 8 i) := by decide
      rw [List.map_map, ctlData]
      apply List.map_congr_left
      intro i hi
      have hi' : i < 4 := by
        have := List.mem_range.mp hi
        omega
      simp only [Function.comp_apply, Mcu.ctl, haddr i hi']
      rw [Mcu.write_ne _ _ (hne i hi' _ (by simp)), Mcu.write_ne _ _ (hne i hi' _ (by simp)), hm₀]
      unfold Mcu.setCtl
      rw [Mcu.write_ne _ _ (hne i hi' _ (by simp)), Mcu.write_ne _ _ (hne i hi' _ (by simp)),
        Mcu.write_ne _ _ (hne i hi' _ (by simp))]
  refine ⟨((m₀.write tmp1 (CTL_BASE_SIZE + BitVec.ofNat 8 k)).write tmp2 controlPkt).ram, ?_, ?_⟩
  · rw [writeControl, ← hm₀, writePacket_eq hrun₀, hsize, hpacket, hm₀]
    rfl
  · rw [Mcu.write_ne _ _ (by decide), Mcu.write_ne _ _ (by decide), hflags]

/-! ### The checksum -/

/-- The sum of the bytes of a page. -/
def pageSum (bytes : List Byte) : BitVec 16 := (bytes.map (·.setWidth 16)).sum

/-- The two bytes of a checksum, the high one first. -/
def sumBytes (bytes : List Byte) : List Byte :=
  [(pageSum bytes).extractLsb' 8 8, (pageSum bytes).extractLsb' 0 8]

/-- `add [tmp2], A` and `adc [tmp1], 0`. -/
def addByte (a : Byte) (m : Mcu) : Mcu :=
  let carry : Byte := if (m.ram tmp2).toNat + a.toNat < 256 then 0 else 1
  let m := m.write tmp2 (m.ram tmp2 + a)
  m.write tmp1 (m.ram tmp1 + carry)

/-- `mcsum_loop`: the bytes below `x`, the last one first. -/
def mcsumLoop : ℕ → Mcu → Mcu
  | 0, m => m
  | x + 1, m => mcsumLoop x (addByte (m.ram (buffer + BitVec.ofNat 8 x)) m)

/-- `sum_in_buffer`. -/
def sumLoop (m : Mcu) : Mcu := mcsumLoop FLASH_BLOCK_SIZE ((m.write tmp1 0).write tmp2 0)

/-- A sum in `tmp1` and `tmp2`. -/
def Mcu.setSum (m : Mcu) (w : BitVec 16) : Mcu :=
  (m.write tmp1 (w.extractLsb' 8 8)).write tmp2 (w.extractLsb' 0 8)

theorem Mcu.setSum_ram (m : Mcu) (w : BitVec 16) {x : Byte} (h₁ : x ≠ tmp1) (h₂ : x ≠ tmp2) :
    (m.setSum w).ram x = m.ram x := by
  rw [setSum, write_ne _ _ h₂, write_ne _ _ h₁]

theorem highByte_toNat (w : BitVec 16) : (w.extractLsb' 8 8).toNat = w.toNat / 256 := by
  have := w.isLt
  rw [BitVec.extractLsb'_toNat, Nat.shiftRight_eq_div_pow]
  omega

theorem lowByte_toNat (w : BitVec 16) : (w.extractLsb' 0 8).toNat = w.toNat % 256 := by
  rw [BitVec.extractLsb'_toNat, Nat.shiftRight_zero]

/-- The carry of the low byte goes into the high one. -/
theorem addByte_setSum (a : Byte) (m : Mcu) (w : BitVec 16) :
    addByte a (m.setSum w) = m.setSum (w + a.setWidth 16) := by
  have ha := a.isLt
  have hlow : w.extractLsb' 0 8 + a = (w + a.setWidth 16).extractLsb' 0 8 := by
    apply BitVec.eq_of_toNat_eq
    rw [lowByte_toNat, BitVec.toNat_add, BitVec.toNat_add, lowByte_toNat, BitVec.toNat_setWidth]
    omega
  have hhigh : w.extractLsb' 8 8 +
      (if (w.extractLsb' 0 8).toNat + a.toNat < 256 then 0 else 1 : Byte) =
        (w + a.setWidth 16).extractLsb' 8 8 := by
    have hw := w.isLt
    apply BitVec.eq_of_toNat_eq
    rw [highByte_toNat, BitVec.toNat_add, BitVec.toNat_add, highByte_toNat, lowByte_toNat,
      BitVec.toNat_setWidth]
    split_ifs
    · have h0 : (0 : Byte).toNat = 0 := rfl
      omega
    · have h1 : (1 : Byte).toNat = 1 := rfl
      omega
  have htmp1 : (m.setSum w).ram tmp1 = w.extractLsb' 8 8 := by
    rw [Mcu.setSum, Mcu.write_ne _ _ (by decide), Mcu.write_same]
  have htmp2 : (m.setSum w).ram tmp2 = w.extractLsb' 0 8 := Mcu.write_same _ _ _
  unfold addByte
  dsimp only
  rw [Mcu.write_ne _ _ (show tmp1 ≠ tmp2 by decide), htmp1, htmp2, hlow, hhigh]
  unfold Mcu.setSum Mcu.write
  congr 1
  funext x
  have hne : tmp1 ≠ tmp2 := by decide
  dsimp only
  split_ifs with h₁ h₂
  · exact absurd (h₁.symm.trans h₂) hne
  · rfl
  · rfl
  · rfl

theorem pageSum_append (bytes bytes' : List Byte) :
    pageSum (bytes ++ bytes') = pageSum bytes + pageSum bytes' := by
  rw [pageSum, List.map_append, List.sum_append]
  rfl

theorem pageSum_singleton (b : Byte) : pageSum [b] = b.setWidth 16 := by simp [pageSum]

theorem mcsumLoop_setSum : ∀ (x : ℕ) (m : Mcu) (w : BitVec 16), x ≤ 150 →
    mcsumLoop x (m.setSum w) = m.setSum (w + pageSum (m.readAll buffer x))
  | 0, m, w, _ => by
      rw [mcsumLoop, show pageSum (m.readAll buffer 0) = 0#16 from rfl, BitVec.add_zero]
  | x + 1, m, w, hx => by
      have hne₁ := bufferByte_ne (show x < 150 by omega) (show bufferPtr ≤ tmp1 by decide)
      have hne₂ := bufferByte_ne (show x < 150 by omega) (show bufferPtr ≤ tmp2 by decide)
      have hread : m.readAll buffer (x + 1) =
          m.readAll buffer x ++ [m.ram (buffer + BitVec.ofNat 8 x)] := by
        rw [Mcu.readAll, List.range_succ, List.map_append]
        rfl
      rw [mcsumLoop, Mcu.setSum_ram _ _ hne₁ hne₂, addByte_setSum, mcsumLoop_setSum x _ _ (by omega),
        hread, pageSum_append, pageSum_singleton, BitVec.add_assoc,
        BitVec.add_comm (pageSum (m.readAll buffer x))]

/-- **The 8-bit checksum** with its carries is the sum of the bytes. -/
theorem sumLoop_eq (m : Mcu) : sumLoop m = sumInBuffer m := by
  have h := mcsumLoop_setSum FLASH_BLOCK_SIZE m 0#16 (by decide)
  rw [BitVec.zero_add] at h
  exact h

/-- A page does not overflow the sum. -/
theorem pageSum_toNat {bytes : List Byte} (h : bytes.length ≤ 256) :
    (pageSum bytes).toNat = (bytes.map (·.toNat)).sum ∧
      (bytes.map (·.toNat)).sum ≤ 255 * bytes.length := by
  induction bytes with
  | nil => exact ⟨rfl, Nat.le_refl 0⟩
  | cons b rest ih =>
      rw [List.length_cons] at h
      obtain ⟨hsum, hle⟩ := ih (by omega)
      have hb := b.isLt
      rw [← List.singleton_append, pageSum_append, pageSum_singleton, BitVec.toNat_add,
        BitVec.toNat_setWidth, hsum, List.map_append, List.sum_append, List.length_append]
      simp only [List.map_cons, List.map_nil, List.sum_cons, List.sum_nil, List.length_cons,
        List.length_nil]
      omega

/-! ### The supervisory call -/

/-- The parameters lie behind the buffer and the flags, and leave the page number alone. -/
theorem sscParameters_eq (f : Ssc) (m : Mcu) : ∃ ram, sscParameters f m = { m with ram := ram } ∧
    ram BLOCKID = m.ram tmp3 ∧ ram POINTER = buffer ∧
      ∀ x, x < tmp1 ∨ x = tmp3 → ram x = m.ram x := by
  refine ⟨(sscParameters f m).ram, rfl, rfl, rfl, ?_⟩
  intro x hx
  have hparameters : ∀ a ∈ [tmp1, KEY1, KEY2, BLOCKID, POINTER, CLOCK, DELAY],
      ¬(a < tmp1 ∨ a = tmp3) := by decide
  have hne (a : Byte) (ha : a ∈ [tmp1, KEY1, KEY2, BLOCKID, POINTER, CLOCK, DELAY]) : x ≠ a := by
    rintro rfl
    exact hparameters x ha hx
  unfold sscParameters
  dsimp only
  rw [Mcu.write_ne _ _ (hne DELAY (by simp)), Mcu.write_ne _ _ (hne CLOCK (by simp)),
    Mcu.write_ne _ _ (hne POINTER (by simp)), Mcu.write_ne _ _ (hne BLOCKID (by simp)),
    Mcu.write_ne _ _ (hne KEY2 (by simp)), Mcu.write_ne _ _ (hne KEY1 (by simp)),
    Mcu.write_ne _ _ (hne tmp1 (by simp))]

theorem execSsc_erase (m : Mcu) : ∃ ram,
    execSsc .erase m = ({ m with ram := ram } : Mcu).setPage (m.ram tmp3) (fun _ => 0) ∧
      ∀ x, x < tmp1 ∨ x = tmp3 → ram x = m.ram x := by
  obtain ⟨ram, hparameters, hpage, -, hram⟩ := sscParameters_eq .erase m
  refine ⟨ram, ?_, hram⟩
  simp only [execSsc, hparameters, hpage]

theorem execSsc_write (m : Mcu) : ∃ ram,
    execSsc .write m = ({ m with ram := ram } : Mcu).setPage (m.ram tmp3)
        (fun i => ram (buffer + BitVec.ofNat 8 i)) ∧
      ∀ x, x < tmp1 ∨ x = tmp3 → ram x = m.ram x := by
  obtain ⟨ram, hparameters, hpage, hptr, hram⟩ := sscParameters_eq .write m
  refine ⟨ram, ?_, hram⟩
  simp only [execSsc, hparameters, hpage, hptr]

/-- The bytes of a page. -/
def Mcu.pageBytes (m : Mcu) (page : Byte) : List Byte :=
  (List.range FLASH_BLOCK_SIZE).map (m.flash page)

theorem Mcu.pageBytes_length (m : Mcu) (page : Byte) : (m.pageBytes page).length = 64 := by
  rw [pageBytes, List.length_map, List.length_range, FLASH_BLOCK_SIZE]

theorem execSsc_read_stored (m : Mcu) : ∃ ram, execSsc .read m = { m with ram := ram } ∧
    Stored { m with ram := ram } buffer (m.pageBytes (m.ram tmp3)) ∧
      ram loaderFlags = m.ram loaderFlags := by
  obtain ⟨ram, hparameters, hpage, hptr, -⟩ := sscParameters_eq .read m
  obtain ⟨ram', hread, hflags⟩ := execSsc_read m
  refine ⟨ram', hread, ?_, hflags⟩
  rw [← hread]
  simp only [execSsc, hparameters, hpage, hptr]
  apply Stored.writeAll
  change buffer.toNat + (m.pageBytes (m.ram tmp3)).length ≤ 256
  rw [m.pageBytes_length]
  decide

/-! ### Writing a page -/

/-- `loadSum` puts the sum behind the code. -/
theorem loadSum_data (m : Mcu) (code : Byte) :
    (loadSum (m.setCtl CCODE code)).ctl CCODE = code ∧
      ctlData (loadSum (m.setCtl CCODE code)) 2 = [m.ram tmp1, m.ram tmp2] := ⟨rfl, rfl⟩

theorem loadSum_flags (m : Mcu) (code : Byte) :
    (loadSum (m.setCtl CCODE code)).ram loaderFlags = m.ram loaderFlags := rfl

/-- The sum of a block in the buffer is put into `tmp1` and `tmp2`. -/
theorem sumInBuffer_stored {m : Mcu} {block : List Byte} (h : Stored m buffer block)
    (hlen : block.length = FLASH_BLOCK_SIZE) : sumInBuffer m = m.setSum (pageSum block) := by
  have hread := h.readAll
  rw [hlen] at hread
  rw [sumInBuffer, hread]
  rfl

theorem setSum_sumBytes (m : Mcu) (block : List Byte) :
    [(m.setSum (pageSum block)).ram tmp1, (m.setSum (pageSum block)).ram tmp2] = sumBytes block :=
  rfl

theorem Mcu.setPage_setPage (m : Mcu) (page : Byte) (bytes bytes' : ℕ → Byte) :
    (m.setPage page bytes).setPage page bytes' = m.setPage page bytes' := by
  have h : (fun x => if x = page then bytes' else if x = page then bytes else m.flash x) =
      fun x => if x = page then bytes' else m.flash x := by
    funext x
    split_ifs <;> rfl
  simp only [setPage, h]

theorem Mcu.setPage_flash (m : Mcu) (page : Byte) (bytes : ℕ → Byte) :
    (m.setPage page bytes).flash page = bytes := if_pos rfl

/-- A page holds the bytes. -/
def Mcu.PageHolds (m : Mcu) (page : Byte) (block : List Byte) : Prop :=
  ∀ i, ∀ h : i < block.length, m.flash page i = block[i]

theorem Mcu.PageHolds.pageBytes {m : Mcu} {page : Byte} {block : List Byte}
    (h : m.PageHolds page block) (hlen : block.length = FLASH_BLOCK_SIZE) :
    m.pageBytes page = block := by
  apply List.ext_getElem
  · rw [m.pageBytes_length, hlen, FLASH_BLOCK_SIZE]
  · intro i h₁ h₂
    rw [← h i h₂]
    simp [Mcu.pageBytes]

/-- Erasing and writing leaves the buffer on the page. -/
theorem execSsc_program {m : Mcu} {block : List Byte} (hblock : Stored m buffer block)
    (hlen : block.length = FLASH_BLOCK_SIZE) :
    ∃ ram bytes, execSsc .write (execSsc .erase m) =
        ({ m with ram := ram } : Mcu).setPage (m.ram tmp3) bytes ∧
      (({ m with ram := ram } : Mcu).setPage (m.ram tmp3) bytes).PageHolds (m.ram tmp3) block ∧
      ram tmp3 = m.ram tmp3 ∧ ram loaderFlags = m.ram loaderFlags := by
  obtain ⟨ram₁, herase, hram₁⟩ := execSsc_erase m
  obtain ⟨ram₂, hwrite, hram₂⟩ :=
    execSsc_write (({ m with ram := ram₁ } : Mcu).setPage (m.ram tmp3) (fun _ => 0))
  have hkept (x : Byte) (hx : x < tmp1 ∨ x = tmp3) : ram₂ x = m.ram x :=
    (hram₂ x hx).trans (hram₁ x hx)
  have hpage : (({ m with ram := ram₁ } : Mcu).setPage (m.ram tmp3) (fun _ => 0)).ram tmp3 =
      m.ram tmp3 := hram₁ tmp3 (.inr rfl)
  refine ⟨ram₂, fun i => ram₂ (buffer + BitVec.ofNat 8 i), ?_, ?_, hkept _ (.inr rfl),
    hkept _ (.inl (by decide))⟩
  · rw [herase, hwrite, hpage]
    exact Mcu.setPage_setPage { m with ram := ram₂ } _ _ _
  · intro i hi
    have hlow : buffer + BitVec.ofNat 8 i < tmp1 := by
      rw [hlen, FLASH_BLOCK_SIZE] at hi
      exact BitVec.lt_trans (bufferByte_lt (by omega)) (by decide)
    rw [Mcu.setPage_flash, hkept _ (.inl hlow), hblock i hi]

/-- **The page is written** and read back, and its sum is sent to the host. -/
theorem writePage_eq {m : Mcu} {block : List Byte} (hrun : ¬halted m)
    (hblock : Stored m buffer block) (hlen : block.length = FLASH_BLOCK_SIZE) :
    ∃ ram bytes, writePage m = some (Mcu.setPage { m with
        ram := ram
        sent := m.sent ++ [replyHeader IG_DEV_WRITEBLOCK ++ sumBytes block] } (m.ctl CDATA) bytes) ∧
      (∀ i, ∀ h : i < block.length, bytes i = block[i]) ∧ ram loaderFlags = m.ram loaderFlags := by
  have htmp3 : (m.write tmp3 (m.ctl CDATA)).ram tmp3 = m.ctl CDATA := Mcu.write_same _ _ _
  have hblock₁ := hblock.write_high (by rw [hlen]; decide) (show bufferPtr ≤ tmp3 by decide)
    (m.ctl CDATA)
  obtain ⟨ram₁, bytes, hprogram, hholds, hpage, hflags₁⟩ := execSsc_program hblock₁ hlen
  rw [htmp3] at hprogram hholds hpage
  obtain ⟨m₂, hm₂⟩ : ∃ m₂, m₂ = ({ m.write tmp3 (m.ctl CDATA) with ram := ram₁ } : Mcu).setPage
    (m.ctl CDATA) bytes := ⟨_, rfl⟩
  rw [← hm₂] at hprogram hholds
  have hpage₂ : m₂.ram tmp3 = m.ctl CDATA := by
    rw [hm₂]
    exact hpage
  obtain ⟨ram₃, hread, hstored, hflags₃⟩ := execSsc_read_stored m₂
  rw [hpage₂, hholds.pageBytes hlen] at hstored
  obtain ⟨m₄, hm₄⟩ : ∃ m₄, m₄ = loadSum ((sumPage m₂).setCtl CCODE IG_DEV_WRITEBLOCK) := ⟨_, rfl⟩
  have hsum : sumPage m₂ = Mcu.setSum { m₂ with ram := ram₃ } (pageSum block) := by
    rw [sumPage, hread, sumInBuffer_stored hstored hlen]
  have hflags₄ : m₄.ram loaderFlags = m.ram loaderFlags := by
    rw [hm₄, loadSum_flags, hsum, Mcu.setSum_ram _ _ (by decide) (by decide)]
    refine hflags₃.trans ?_
    rw [hm₂]
    exact hflags₁.trans (Mcu.write_ne _ _ (by decide))
  have hrun₄ : ¬halted m₄ := by
    unfold halted
    rw [hflags₄]
    exact hrun
  obtain ⟨ram, hwrite, hflags⟩ := writeControl_eq hrun₄ (show 2 ≤ 4 by omega)
  have hdata := loadSum_data (sumPage m₂) IG_DEV_WRITEBLOCK
  rw [← hm₄, hsum, setSum_sumBytes] at hdata
  rw [hdata.1, hdata.2] at hwrite
  refine ⟨ram, bytes, ?_, ?_, hflags.trans hflags₄⟩
  · rw [writePage, hprogram, ← hm₄]
    refine hwrite.trans ?_
    rw [hm₄, hsum, hm₂]
    rfl
  · intro i hi
    have h := hholds i hi
    rwa [hm₂, Mcu.setPage_flash] at h

/-! ### `main_prog` -/

/-- The page is not protected, or the special code is there. -/
def Unlocked (m : Mcu) : Prop :=
  m.ctl (CDATA + 1) = MAGIC_WRITE_BYTE ∨ 48 ≤ (m.ctl CDATA).toNat

/-- The block has the checksum in the packet, or there is none. -/
def ChecksumFits (m : Mcu) (block : List Byte) : Prop :=
  (m.ctl (CDATA + 2) = 0 ∧ m.ctl (CDATA + 3) = 0) ∨
    sumBytes block = [m.ctl (CDATA + 2), m.ctl (CDATA + 3)]

/-- The state in which the block has been read. -/
structure BlockRead (block : List Byte) (queue : List (List Byte)) (m m' : Mcu) : Prop where
  rest : ∃ ram, m' = { m with ram := ram, out := queue }
  stored : Stored m' buffer block
  running : ¬halted m'
  ctl : ∀ i < 4, m'.ctl (CDATA + BitVec.ofNat 8 i) = m.ctl (CDATA + BitVec.ofNat 8 i)

theorem BlockRead.checksumFits_iff {block : List Byte} {queue : List (List Byte)} {m m' : Mcu}
    (h : BlockRead block queue m m') : ChecksumFits m' block ↔ ChecksumFits m block := by
  unfold ChecksumFits
  rw [show m'.ctl (CDATA + 2) = m.ctl (CDATA + 2) from h.ctl 2 (by decide),
    show m'.ctl (CDATA + 3) = m.ctl (CDATA + 3) from h.ctl 3 (by decide)]

/-- The checksum in `tmp1` and `tmp2` is compared with the one in the packet. -/
theorem checkPage_eq {m : Mcu} {block : List Byte} (hblock : Stored m buffer block)
    (hlen : block.length = FLASH_BLOCK_SIZE) :
    checkPage m = if m.ctl (CDATA + 2) = 0 ∧ m.ctl (CDATA + 3) = 0 then writePage m
      else if sumBytes block = [m.ctl (CDATA + 2), m.ctl (CDATA + 3)] then
        writePage (m.setSum (pageSum block))
      else chksumError (m.setSum (pageSum block)) := by
  have hiff : ((m.setSum (pageSum block)).ram tmp1 = (m.setSum (pageSum block)).ctl (CDATA + 2) ∧
      (m.setSum (pageSum block)).ram tmp2 = (m.setSum (pageSum block)).ctl (CDATA + 3)) ↔
        sumBytes block = [m.ctl (CDATA + 2), m.ctl (CDATA + 3)] := by
    rw [← setSum_sumBytes m block, List.cons.injEq, List.cons.injEq]
    simp only [and_true]
    rfl
  unfold checkPage
  rw [sumInBuffer_stored hblock hlen]
  dsimp only
  simp only [hiff]

theorem checkPage_writes {m : Mcu} {block : List Byte} (hrun : ¬halted m)
    (hblock : Stored m buffer block) (hlen : block.length = FLASH_BLOCK_SIZE)
    (hsum : ChecksumFits m block) :
    ∃ ram bytes, checkPage m = some (Mcu.setPage { m with
        ram := ram
        sent := m.sent ++ [replyHeader IG_DEV_WRITEBLOCK ++ sumBytes block] } (m.ctl CDATA) bytes) ∧
      ∀ i, ∀ h : i < block.length, bytes i = block[i] := by
  rw [checkPage_eq hblock hlen]
  split_ifs with hzero hfits
  · obtain ⟨ram, bytes, hwrite, hbytes, -⟩ := writePage_eq hrun hblock hlen
    exact ⟨ram, bytes, hwrite, hbytes⟩
  · have hblock' : Stored (m.setSum (pageSum block)) buffer block :=
      (hblock.write_high (by rw [hlen]; decide) (by decide) _).write_high (by rw [hlen]; decide)
        (by decide) _
    obtain ⟨ram, bytes, hwrite, hbytes, -⟩ :=
      writePage_eq (m := m.setSum (pageSum block)) hrun hblock' hlen
    exact ⟨ram, bytes, hwrite, hbytes⟩
  · exact absurd hsum (not_or.mpr ⟨hzero, hfits⟩)

theorem checkPage_refuses {m : Mcu} {block : List Byte} (hrun : ¬halted m)
    (hblock : Stored m buffer block) (hlen : block.length = FLASH_BLOCK_SIZE)
    (hsum : ¬ChecksumFits m block) :
    ∃ ram bytes, checkPage m = some { m with
      ram := ram, sent := m.sent ++ [replyHeader IG_DEV_BAD_CHKSUM ++ bytes] } := by
  obtain ⟨hzero, hfits⟩ := not_or.mp hsum
  rw [checkPage_eq hblock hlen, if_neg hzero, if_neg hfits]
  obtain ⟨ram, hwrite, -⟩ := writeControl_eq
    (m := loadSum ((m.setSum (pageSum block)).setCtl CCODE IG_DEV_BAD_CHKSUM)) hrun
    (Nat.le_refl 4)
  exact ⟨ram, _, hwrite⟩

section

variable {m : Mcu} {data queue : List (List Byte)} (hrun : ¬halted m)
  (hne : ∀ p ∈ data ++ queue, p ≠ []) (hlen : data.flatten.length = FLASH_BLOCK_SIZE)
  (hout : m.out = data ++ queue)

include hrun hne hlen hout

theorem readBufferReal_page : ∃ m', readBufferReal (BitVec.ofNat 8 FLASH_BLOCK_SIZE) m =
    some (m', true) ∧ BlockRead data.flatten queue m m' := by
  obtain ⟨ram, hread, hstored, hflags, hram⟩ :=
    readBufferReal_block (n := BitVec.ofNat 8 FLASH_BLOCK_SIZE) hrun (by decide) (by decide) hne
      (by rw [hlen]; rfl) hout
  refine ⟨{ m with ram := ram, out := queue }, hread, ⟨ram, rfl⟩, hstored, ?_, ?_⟩
  · have h := (halted_bufclr m).not.mpr hrun
    unfold halted at h ⊢
    rw [Mcu.write_same, ← hflags] at h
    exact h
  · intro i hi
    have hhigh : ∀ i < 4, tmp3 ≤ controlPkt + (CDATA + BitVec.ofNat 8 i) := by decide
    exact hram _ (hhigh i hi)

/-- A page that is protected is refused. -/
theorem mainProg_locked (hlocked : ¬Unlocked m) : ∃ ram, mainProg m = some { m with
    ram := ram, out := queue, sent := m.sent ++ [replyHeader IG_DEV_INVALID_ARG] } := by
  obtain ⟨m', hread, ⟨ram, hm'⟩, -, hrun', hctl⟩ := readBufferReal_page hrun hne hlen hout
  have hlocked' : ¬(m'.ctl (CDATA + 1) = MAGIC_WRITE_BYTE ∨ 48 ≤ (m'.ctl CDATA).toNat) := by
    rw [show m'.ctl CDATA = m.ctl CDATA from hctl 0 (by decide),
      show m'.ctl (CDATA + 1) = m.ctl (CDATA + 1) from hctl 1 (by decide)]
    exact hlocked
  obtain ⟨ram', hwrite, -⟩ := writeControl_eq
    (m := m'.setCtl CCODE IG_DEV_INVALID_ARG) hrun' (Nat.zero_le 4)
  refine ⟨ram', ?_⟩
  simp only [mainProg, hread, Option.bind_eq_bind, Option.bind_some, true_and, if_neg hlocked']
  refine hwrite.trans ?_
  rw [hm']
  rfl

theorem mainProg_checks (hunlocked : Unlocked m) :
    ∃ m', mainProg m = checkPage m' ∧ BlockRead data.flatten queue m m' := by
  obtain ⟨m', hread, hblock⟩ := readBufferReal_page hrun hne hlen hout
  have hunlocked' : m'.ctl (CDATA + 1) = MAGIC_WRITE_BYTE ∨ 48 ≤ (m'.ctl CDATA).toNat := by
    rw [show m'.ctl CDATA = m.ctl CDATA from hblock.ctl 0 (by decide),
      show m'.ctl (CDATA + 1) = m.ctl (CDATA + 1) from hblock.ctl 1 (by decide)]
    exact hunlocked
  refine ⟨m', ?_, hblock⟩
  simp only [mainProg, hread, Option.bind_eq_bind, Option.bind_some, true_and, if_pos hunlocked']

/-- A block with another checksum is refused. -/
theorem mainProg_badChksum (hunlocked : Unlocked m) (hsum : ¬ChecksumFits m data.flatten) :
    ∃ ram bytes, mainProg m = some { m with
      ram := ram, out := queue, sent := m.sent ++ [replyHeader IG_DEV_BAD_CHKSUM ++ bytes] } := by
  obtain ⟨m', hcheck, hblock⟩ := mainProg_checks hrun hne hlen hout hunlocked
  obtain ⟨ram, bytes, hrefuse⟩ := checkPage_refuses hblock.running hblock.stored hlen
    (fun hf => hsum (hblock.checksumFits_iff.mp hf))
  obtain ⟨_, rfl⟩ := hblock.rest
  exact ⟨ram, bytes, hcheck.trans hrefuse⟩

/-- **A block that is accepted** is on its page. -/
theorem mainProg_writes (hunlocked : Unlocked m) (hsum : ChecksumFits m data.flatten) :
    ∃ ram bytes, mainProg m = some (Mcu.setPage { m with
        ram := ram
        out := queue
        sent := m.sent ++ [replyHeader IG_DEV_WRITEBLOCK ++ sumBytes data.flatten] }
          (m.ctl CDATA) bytes) ∧
      ∀ i, ∀ h : i < data.flatten.length, bytes i = data.flatten[i] := by
  obtain ⟨m', hcheck, hblock⟩ := mainProg_checks hrun hne hlen hout hunlocked
  have hpage : m'.ctl CDATA = m.ctl CDATA := hblock.ctl 0 (by decide)
  obtain ⟨ram, bytes, hwrite, hbytes⟩ := checkPage_writes hblock.running hblock.stored hlen
    (hblock.checksumFits_iff.mpr hsum)
  rw [hpage] at hwrite
  obtain ⟨_, rfl⟩ := hblock.rest
  exact ⟨ram, bytes, hcheck.trans hwrite, hbytes⟩

end

end IguanaIR.Firmware
