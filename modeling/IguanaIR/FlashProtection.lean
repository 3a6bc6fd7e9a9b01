import IguanaIR.PageTransfer
import IguanaIR.Reflasher

/-! # Write protection of the flash

What becomes of a block of 68 bytes that `deviceTransaction` sends to a loader of version 3, when
the bytes of the page may have changed on the way.  The loader writes the page or refuses it, and
nothing else in the flash changes.  The checksum is computed by the host, by the script that
prepares the pages, and by the loader byte by byte with a carry: `ChecksumsAgree` says that all
of them get the same two bytes, and that these are the sum. -/

namespace IguanaIR

open Firmware

variable {fl : ℚ → ℚ}

/-! ### The checksums -/

/-- The two bytes are the checksum of the page for everyone who computes it. -/
structure ChecksumsAgree (page : List Byte) (high low : Byte) : Prop where
  host : ∀ front : List Byte, front.length = 4 →
    ((addChecksum (front ++ page)).drop 2).take 2 = [high, low]
  script : ∀ UNSAFE pages, (∀ q ∈ pages, q.Fits) → ∃ prepared,
    preparePages UNSAFE pages = some prepared ∧ prepared.map (·.toPage) = pages.reverse ∧
      ∀ q ∈ prepared, q.bytes = page → (q.data.drop 2).take 2 = [high, low]
  loader : ∀ m, Stored m buffer page →
    (sumLoop m).ram tmp1 = high ∧ (sumLoop m).ram tmp2 = low
  sum : 256 * high.toNat + low.toNat = (page.map (·.toNat)).sum

theorem checksumsAgree {page : List Byte} (hlen : page.length = FLASH_BLOCK_SIZE) :
    ChecksumsAgree page ((pageSum page).extractLsb' 8 8) ((pageSum page).extractLsb' 0 8) where
  host := by
    intro front hfront
    match front, hfront with
    | [a, b, c, d], _ => rfl
  script := by
    intro UNSAFE pages hpages
    refine ⟨_, preparePages_eq UNSAFE hpages, ?_, ?_⟩
    · rw [List.map_reverse, List.map_map]
      exact congrArg List.reverse (List.map_id pages)
    · intro q hq hbytes
      obtain ⟨p, -, rfl⟩ := List.mem_map.mp (List.mem_reverse.mp hq)
      rw [← show p.bytes = page from hbytes]
      rfl
  loader := by
    intro m hstored
    rw [sumLoop_eq, sumInBuffer_stored hstored hlen]
    exact ⟨rfl, rfl⟩
  sum := by
    have hle : page.length ≤ 256 := by
      rw [hlen]
      decide
    rw [highByte_toNat, lowByte_toNat, ← (pageSum_toNat hle).1]
    omega

/-- Nobody gets two other bytes with the same sum. -/
theorem ChecksumsAgree.eq_of_sum {page : List Byte} {high low high' low' : Byte}
    (h : ChecksumsAgree page high low)
    (hsum : (page.map (·.toNat)).sum = 256 * high'.toNat + low'.toNat) :
    high = high' ∧ low = low' := by
  have hlow := low.isLt
  have hlow' := low'.isLt
  rw [← h.sum] at hsum
  exact ⟨BitVec.eq_of_toNat_eq (by omega), BitVec.eq_of_toNat_eq (by omega)⟩

/-- Two bytes are the checksum as soon as they are the sum. -/
theorem sumBytes_iff {page : List Byte} (hlen : page.length = FLASH_BLOCK_SIZE) (high low : Byte) :
    sumBytes page = [high, low] ↔ (page.map (·.toNat)).sum = 256 * high.toNat + low.toNat := by
  have hagree := checksumsAgree hlen
  constructor
  · intro h
    injection h with h₁ h
    injection h with h₂ _
    rw [← hagree.sum, h₁, h₂]
  · intro h
    obtain ⟨h₁, h₂⟩ := hagree.eq_of_sum h
    rw [sumBytes, h₁, h₂]

/-! ### What the loader does -/

/-- The page holds the bytes that were received, and they are summed up in the reply. -/
structure PageWritten (page : Byte) (received : List Byte) (m m' : Mcu) (high low : Byte) :
    Prop where
  others : ∀ x, x ≠ page → m'.flash x = m.flash x
  holds : m'.PageHolds page received
  reply : m'.sent = m.sent ++ [replyHeader IG_DEV_WRITEBLOCK ++ [high, low]]
  agree : ChecksumsAgree received high low

/-- The flash is as it was, and the reply is an error. -/
structure PageRefused (m m' : Mcu) : Prop where
  flash : m'.flash = m.flash
  reply : ∃ code ∈ [IG_DEV_INVALID_ARG, IG_DEV_BAD_CHKSUM], ∃ bytes,
    m'.sent = m.sent ++ [replyHeader code ++ bytes]

/-- The page may be written: it is not protected, or the special code unlocks it, and the block
has the checksum in the packet, or there is none. -/
def Writable (page magic high low : Byte) (received : List Byte) : Prop :=
  (48 ≤ page.toNat ∨ magic = 0x42) ∧
    ((high = 0 ∧ low = 0) ∨
      (received.map (·.toNat)).sum = 256 * high.toNat + low.toNat)

instance (page magic high low : Byte) (received : List Byte) :
    Decidable (Writable page magic high low received) := inferInstanceAs (Decidable (_ ∧ _))

theorem mainRecv_writes (others : Byte → Mcu → Option Mcu) {m : Mcu} {block : List Byte}
    {page magic high low : Byte} {data queue : List (List Byte)} (hblock : block.length = 68)
    (hargs : blockArguments block = [page, magic, high, low]) (hrun : ¬halted m)
    (hne : ∀ p ∈ data ++ queue, p ≠ []) (hlen : data.flatten.length = FLASH_BLOCK_SIZE)
    (hout : m.out = controlPacket IG_DEV_WRITEBLOCK [page, magic, high, low] :: (data ++ queue)) :
    ∃ m', mainRecv others m = some m' ∧ m'.out = queue ∧
      if Writable page magic high low data.flatten then
        ∃ high' low', PageWritten page data.flatten m m' high' low'
      else PageRefused m m' := by
  rw [← hargs] at hout
  obtain ⟨m₁, hmain, ⟨ram₁, hm₁⟩, hrun₁, hctl⟩ := mainRecv_block others hblock hrun hout
  rw [hargs] at hctl
  obtain ⟨hpage, hmagic, hhigh, hlow⟩ : m₁.ctl CDATA = page ∧ m₁.ctl (CDATA + 1) = magic ∧
      m₁.ctl (CDATA + 2) = high ∧ m₁.ctl (CDATA + 3) = low := by
    injection hctl with h₀ h
    injection h with h₁ h
    injection h with h₂ h
    injection h with h₃ _
    exact ⟨h₀, h₁, h₂, h₃⟩
  have hout₁ : m₁.out = data ++ queue := by rw [hm₁]
  have hflash₁ : m₁.flash = m.flash := by rw [hm₁]
  have hsent₁ : m₁.sent = m.sent := by rw [hm₁]
  have hunlocked : Unlocked m₁ ↔ 48 ≤ page.toNat ∨ magic = 0x42 := by
    rw [Unlocked, hpage, hmagic, or_comm]
    rfl
  have hfits : ChecksumFits m₁ data.flatten ↔ (high = 0 ∧ low = 0) ∨
      (data.flatten.map (·.toNat)).sum = 256 * high.toNat + low.toNat := by
    rw [ChecksumFits, hhigh, hlow, sumBytes_iff hlen]
  rw [hmain]
  by_cases hopen : Unlocked m₁
  · by_cases hsum : ChecksumFits m₁ data.flatten
    · obtain ⟨ram, bytes, hwrite, hbytes⟩ := mainProg_writes hrun₁ hne hlen hout₁ hopen hsum
      refine ⟨_, hwrite, rfl, ?_⟩
      rw [if_pos ⟨hunlocked.mp hopen, hfits.mp hsum⟩]
      refine ⟨_, _, ?_, ?_, ?_, checksumsAgree hlen⟩
      · intro x hx
        rw [hpage]
        exact (if_neg hx).trans (congrFun hflash₁ x)
      · intro i hi
        rw [hpage, Mcu.setPage_flash, hbytes i hi]
      · exact congrArg (· ++ _) hsent₁
    · obtain ⟨ram, bytes, hrefuse⟩ := mainProg_badChksum hrun₁ hne hlen hout₁ hopen hsum
      refine ⟨_, hrefuse, rfl, ?_⟩
      rw [if_neg (fun h => hsum (hfits.mpr h.2))]
      exact ⟨hflash₁, IG_DEV_BAD_CHKSUM, by simp, bytes, congrArg (· ++ _) hsent₁⟩
  · obtain ⟨ram, hrefuse⟩ := mainProg_locked hrun₁ hne hlen hout₁ hopen
    refine ⟨_, hrefuse, rfl, ?_⟩
    rw [if_neg (fun h => hopen (hunlocked.mpr h.1))]
    refine ⟨hflash₁, IG_DEV_INVALID_ARG, by simp, [], ?_⟩
    rw [List.append_nil]
    exact congrArg (· ++ _) hsent₁

/-! ### Both sides -/

theorem findTypeEntry_writeBlock {version : Version} (h : 0x200 ≤ version) :
    findTypeEntry IG_DEV_WRITEBLOCK version =
      some ⟨IG_DEV_WRITEBLOCK, CTL_TODEV, 68, true, 2⟩ := findTypeEntry_newer rfl h

/-- A loader of this version is newer than the old devices. -/
theorem loader3_le {version : Version} (h : version &&& 0xFF00 = 0x0300) : 0x300 ≤ version := by
  have hle : version.toNat &&& 0xFF00 ≤ version.toNat := Nat.and_le_left
  have hand : version.toNat &&& 0xFF00 = 0x300 := congrArg BitVec.toNat h
  rw [hand] at hle
  exact hle

theorem deviceCode_writeBlock {version : Version} (h : 0x200 ≤ version) :
    deviceCode IG_DEV_WRITEBLOCK version = IG_DEV_WRITEBLOCK := by
  rw [deviceCode, translateDevice_newer h]
  rfl

/-- Packets that were altered on the way have the same lengths. -/
theorem altered_page {packets data : List (List Byte)}
    (h : data.map List.length = packets.map List.length) (hne : ∀ p ∈ packets, p ≠ []) :
    (∀ p ∈ data, p ≠ []) ∧ data.flatten.length = packets.flatten.length := by
  constructor
  · rintro p hp rfl
    have hmem : 0 ∈ packets.map List.length := by
      rw [← h]
      exact List.mem_map_of_mem (f := List.length) hp
    obtain ⟨q, hq, hnil⟩ := List.mem_map.mp hmem
    exact hne q hq (List.length_eq_zero_iff.mp hnil)
  · rw [List.length_flatten, List.length_flatten, h]

/-- **Pages are protected, and checksums agree.**  A block that the host sends, with the bytes of
the page altered or not, changes no other page of the flash.  It is written when the page is not
protected and the checksum fits, and else it is refused with an error. -/
theorem flash_protected (others : Byte → Mcu → Option Mcu) {d : Device} {page magic c₁ c₂ : Byte}
    {bytes : List Byte} (hversion : d.idev.version &&& 0xFF00 = 0x0300) (hlen : bytes.length = 64)
    (hsent : d.usb.outcome.controlSent = true) (hall : d.usb.outcome.failAt = none) :
    ∃ d' a high low packets,
      deviceTransaction fl d
        ⟨IG_DEV_WRITEBLOCK, 68, some ([page, magic, c₁, c₂] ++ bytes)⟩ false = some (d', a) ∧
      d'.usb.wire = d.usb.wire ++
        controlPacket IG_DEV_WRITEBLOCK [page, magic, high, low] :: packets ∧
      packets.flatten = bytes ∧ ChecksumsAgree bytes high low ∧
      ∀ m data queue, ¬halted m → (∀ p ∈ queue, p ≠ []) →
        data.map List.length = packets.map List.length →
        m.out = controlPacket IG_DEV_WRITEBLOCK [page, magic, high, low] :: (data ++ queue) →
        ∃ m', mainRecv others m = some m' ∧ m'.out = queue ∧
          if Writable page magic high low data.flatten then
            ∃ high' low', PageWritten page data.flatten m m' high' low' ∧
              ((high' = high ∧ low' = low) ∨ (high = 0 ∧ low = 0 ∧ data.flatten ≠ bytes))
          else PageRefused m m' := by
  have hnew : 0x200 ≤ d.idev.version := BitVec.le_trans (by decide) (loader3_le hversion)
  have hblock : ([page, magic, c₁, c₂] ++ bytes).length = 68 := by
    rw [List.length_append, hlen]
    rfl
  have hargs : blockArguments ([page, magic, c₁, c₂] ++ bytes) =
      [page, magic, (pageSum bytes).extractLsb' 8 8, (pageSum bytes).extractLsb' 0 8] :=
    blockArguments_eq hblock
  have hcheck : checkIncomingProtocol (some d.idev.version)
      ⟨IG_DEV_WRITEBLOCK, 68, some ([page, magic, c₁, c₂] ++ bytes)⟩ false =
        some ⟨IG_DEV_WRITEBLOCK, CTL_TODEV, 68, true, 2⟩ := by
    rw [checkIncomingProtocol, Option.getD_some, findTypeEntry_writeBlock hnew]
    rfl
  obtain ⟨d', a, htransaction, hwire⟩ := @deviceTransaction_block fl d _ _ _ _ hcheck rfl
    (deviceCode_writeBlock hnew) (show ¬hasDataStream IG_DEV_WRITEBLOCK by decide)
    (show IG_DEV_WRITEBLOCK ≠ IG_DEV_SETPINCONFIG by decide)
    (show IG_DEV_WRITEBLOCK ≠ IG_DEV_GETPINCONFIG by decide) hblock hsent hall
  rw [hargs] at hwire
  obtain ⟨hne, hflat⟩ := sendPackets_page d.idev.maxPacketSize bytes d.idev.packetSize_pos
  have hagree : ChecksumsAgree bytes _ _ := checksumsAgree hlen
  refine ⟨d', a, _, _, _, htransaction, hwire, hflat, hagree, ?_⟩
  intro m data queue hrun hqueue hlengths hout
  obtain ⟨hdata, hsize⟩ := altered_page hlengths hne
  have hall : ∀ p ∈ data ++ queue, p ≠ [] := List.forall_mem_append.mpr ⟨hdata, hqueue⟩
  have hreceived : data.flatten.length = FLASH_BLOCK_SIZE := by
    rw [hsize]
    exact (congrArg List.length hflat).trans hlen
  obtain ⟨m', hm', hqueue', hdone⟩ := mainRecv_writes others hblock hargs hrun hall hreceived hout
  refine ⟨m', hm', hqueue', ?_⟩
  split_ifs at hdone ⊢ with hwritable
  · obtain ⟨high', low', hwritten⟩ := hdone
    refine ⟨high', low', hwritten, ?_⟩
    obtain hzero | hsum := hwritable.2
    · by_cases hsame : data.flatten = bytes
      · left
        apply hwritten.agree.eq_of_sum
        rw [hsame, hagree.sum]
      · exact .inr ⟨hzero.1, hzero.2, hsame⟩
    · exact .inl (hwritten.agree.eq_of_sum hsum)
  · exact hdone

/-- A page of halts for the end of the flash. -/
theorem flash_protected_halts : ∃ d' a packets,
    deviceTransaction Binary64.nearest burstDevice
      ⟨IG_DEV_WRITEBLOCK, 68, some ([0x7F, 0, 0, 0] ++ List.replicate 64 0x30)⟩ false =
        some (d', a) ∧
      d'.usb.wire = controlPacket IG_DEV_WRITEBLOCK [0x7F, 0, 0x0C, 0x00] :: packets := by
  obtain ⟨d', a, high, low, packets, h, hwire, -, hagree, -⟩ :=
    @flash_protected Binary64.nearest (fun _ => some) burstDevice 0x7F 0 0 0
      (List.replicate 64 0x30) (by decide) rfl rfl rfl
  obtain ⟨rfl, rfl⟩ := @ChecksumsAgree.eq_of_sum _ _ _ 0x0C 0x00 hagree (by decide)
  exact ⟨d', a, packets, h, hwire⟩

end IguanaIR
