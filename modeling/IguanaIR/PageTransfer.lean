import IguanaIR.TransferFraming
import IguanaIR.Firmware.Flash

/-! # Pages on their way to the device

What a transaction writes for a block of 68 bytes, the page number and the checksum in the control
packet and the 64 bytes of the page behind it, and how the loader takes it.  The reflasher sends
such blocks with `IG_DEV_WRITEBLOCK`, and `IG_DEV_SETID` becomes one. -/

namespace IguanaIR

open Firmware

variable {fl : ℚ → ℚ}

/-! ### What the host writes -/

/-- The arguments in the control packet: the page number, the special code and the checksum. -/
def blockArguments (block : List Byte) : List Byte := (addChecksum block).take 4

theorem addChecksum_drop (block : List Byte) : (addChecksum block).drop 4 = block.drop 4 := by
  rw [addChecksum, List.drop_set_of_lt (by omega), List.drop_set_of_lt (by omega)]

theorem blockArguments_eq {block : List Byte} (hlen : block.length = 68) :
    blockArguments block = block.take 2 ++ sumBytes (block.drop 4) := by
  match block, hlen with
  | a :: b :: c :: d :: rest, _ => rfl

/-- The page number and the special code are at the front of the block. -/
theorem blockArguments_length {block : List Byte} (hlen : block.length = 68) :
    (blockArguments block).length = 4 := by
  rw [blockArguments, List.length_take, addChecksum_length, hlen]
  rfl

/-- What is ready for the wire. -/
theorem prepare_block {checks : Device → Option (Device × Bool)} {d : Device}
    {request : DataPacket} {block : List Byte}
    (hlabel : replaceLabel request d.idev.version = some ⟨request.code, 68, some block⟩)
    (hcode : deviceCode request.code d.idev.version = IG_DEV_WRITEBLOCK)
    (hstream : ¬hasDataStream request.code) (hpin : request.code ≠ IG_DEV_SETPINCONFIG)
    (hlen : block.length = 68) :
    prepare fl checks d request = some (forgetFeatures d request.code,
      ⟨controlPacket IG_DEV_WRITEBLOCK (blockArguments block), 4,
        ⟨request.code, 68, some (addChecksum block)⟩⟩) := by
  have hversion := (forgetFeatures_keeps d request.code).version
  have hread : readBytes (some block) 68 = some block := by
    have h := @readBytes_some block 68 (by omega)
    rwa [List.take_of_length_le (by omega)] at h
  have hargs : readBytes (some (addChecksum block)) 4 = some (blockArguments block) :=
    @readBytes_some (addChecksum block) 4 (by rw [addChecksum_length]; omega)
  have hchecksum : checksumBlock IG_DEV_WRITEBLOCK ⟨request.code, 68, some block⟩ =
      some ⟨request.code, 68, some (addChecksum block)⟩ := by
    unfold checksumBlock
    rw [if_pos ⟨rfl, rfl⟩, hread, Option.map_some, Option.getD_some,
      List.drop_of_length_le (by omega), List.append_nil]
  simp only [prepare, hlabel, Option.bind_eq_bind, Option.bind_some, hversion, hcode, hchecksum]
  unfold packRequest
  rw [if_neg hstream, if_neg hpin]
  dsimp only
  rw [show min (68 : ℤ) 4 = 4 by decide, hargs]
  rfl

/-- **A block is transmitted** as the control packet with its arguments and the packets with its
data. -/
theorem transaction_block {checks : Device → Option (Device × Bool)} {d : Device}
    {request : DataPacket} {type : PacketType} {block : List Byte} {nullResponse : Bool}
    (htype : checkIncomingProtocol (some d.idev.version) request nullResponse = some type)
    (hlabel : replaceLabel request d.idev.version = some ⟨request.code, 68, some block⟩)
    (hcode : deviceCode request.code d.idev.version = IG_DEV_WRITEBLOCK)
    (hstream : ¬hasDataStream request.code) (hpin : request.code ≠ IG_DEV_SETPINCONFIG)
    (hlen : block.length = 68) (hsent : d.usb.outcome.controlSent = true)
    (hall : d.usb.outcome.failAt = none) :
    ∃ d' a, transaction fl checks d request nullResponse = some (d', a) ∧ d.Keeps d' ∧
      d'.usb.outcomes = d.usb.outcomes.tail ∧
      d'.usb.wire = d.usb.wire ++ controlPacket IG_DEV_WRITEBLOCK (blockArguments block) ::
        sendPackets d.idev.maxPacketSize (block.drop 4) false := by
  have hprepare := @prepare_block fl checks d request block hlabel hcode hstream hpin hlen
  obtain ⟨d₁, hd₁⟩ : ∃ d₁, d₁ = forgetFeatures d request.code := ⟨_, rfl⟩
  have husb : d₁.usb = d.usb ∧ d₁.idev.maxPacketSize = d.idev.maxPacketSize := by
    rw [hd₁]
    unfold forgetFeatures
    split_ifs
    · exact ⟨rfl, rfl⟩
    · exact ⟨rfl, rfl⟩
  have hkeeps : d.Keeps d₁ := by
    rw [hd₁]
    exact forgetFeatures_keeps d _
  have hread : readBytes (some (addChecksum block)) 68 = some (addChecksum block) := by
    have h := @readBytes_some (addChecksum block) 68 (by rw [addChecksum_length]; omega)
    rwa [List.take_of_length_le (by rw [addChecksum_length]; omega)] at h
  have hsend : ¬request.code = IG_DEV_SEND := fun hc => hstream (.inl hc)
  have hstreamed : dataStream d₁ ⟨controlPacket IG_DEV_WRITEBLOCK (blockArguments block), 4,
      ⟨request.code, 68, some (addChecksum block)⟩⟩ none =
        some (true, sendPackets d.idev.maxPacketSize (block.drop 4) false) := by
    simp only [dataStream, hread, Option.bind_eq_bind, Option.bind_some, sendData, husb.2]
    rw [if_pos (by decide), beq_false_of_ne hsend, Bool.and_false]
    rw [show (4 : ℤ).toNat = 4 from rfl, addChecksum_drop]
  rw [transaction, htype]
  simp only [hprepare, Option.bind_eq_bind, Option.bind_some, ← hd₁]
  unfold transmit
  dsimp only
  rw [husb.1, hsent, if_pos rfl, hall, hstreamed]
  refine ⟨_, _, rfl, hkeeps.trans (.wrote d₁ _), ?_, ?_⟩
  · rw [Device.wrote, husb.1]
  · rw [Device.wrote, husb.1]

/-- Only the pin configuration is split for old devices. -/
theorem deviceTransaction_whole (fl : ℚ → ℚ) (d : Device) {request : DataPacket}
    (hset : request.code ≠ IG_DEV_SETPINCONFIG) (hget : request.code ≠ IG_DEV_GETPINCONFIG)
    (nullResponse : Bool) :
    deviceTransaction fl d request nullResponse = wholeTransaction fl d request nullResponse := by
  rw [deviceTransaction, if_neg]
  rintro ⟨-, hcode | hcode⟩
  · exact hset hcode
  · exact hget hcode

theorem deviceTransaction_block {d : Device} {request : DataPacket} {type : PacketType}
    {block : List Byte} {nullResponse : Bool}
    (htype : checkIncomingProtocol (some d.idev.version) request nullResponse = some type)
    (hlabel : replaceLabel request d.idev.version = some ⟨request.code, 68, some block⟩)
    (hcode : deviceCode request.code d.idev.version = IG_DEV_WRITEBLOCK)
    (hstream : ¬hasDataStream request.code) (hset : request.code ≠ IG_DEV_SETPINCONFIG)
    (hget : request.code ≠ IG_DEV_GETPINCONFIG) (hlen : block.length = 68)
    (hsent : d.usb.outcome.controlSent = true) (hall : d.usb.outcome.failAt = none) :
    ∃ d' a, deviceTransaction fl d request nullResponse = some (d', a) ∧
      d'.usb.wire = d.usb.wire ++ controlPacket IG_DEV_WRITEBLOCK (blockArguments block) ::
        sendPackets d.idev.maxPacketSize (block.drop 4) false := by
  rw [deviceTransaction_whole fl d hset hget]
  obtain ⟨d', a, htransaction, -, -, hwire⟩ :=
    transaction_block htype hlabel hcode hstream hset hlen hsent hall
  exact ⟨d', a, htransaction, hwire⟩

/-- The pieces of the page are not empty, and hold all of it. -/
theorem sendPackets_page (m : ℕ) (bytes : List Byte) (hm : 0 < m) :
    (∀ p ∈ sendPackets m bytes false, p ≠ []) ∧ (sendPackets m bytes false).flatten = bytes := by
  constructor
  · intro p hp
    rw [sendPackets_eq_pieces] at hp
    exact Chunks.ne_nil_of_mem_pieces hm hp
  · have h := Chunks.blocks_flatten_append_rest hm bytes
    rw [sendPackets_eq_pieces, Chunks.pieces, List.flatten_append]
    split_ifs with hrest
    · rw [List.isEmpty_iff.mp hrest] at h
      exact h
    · rw [List.flatten_singleton]
      exact h

/-- The second row holds for the newer devices. -/
theorem findTypeEntry_newer {code : Byte} {version : Version} {t₁ t₂ : PacketType}
    (hrows : types.filter (·.type.code == code) = [⟨0, 0x1FF, t₁⟩, ⟨0x200, 0, t₂⟩])
    (h : 0x200 ≤ version) : findTypeEntry code version = some t₂ := by
  have h' : 0x200 ≤ version.toNat := h
  rw [findTypeEntry_rows, hrows, List.find?_cons_of_neg, List.find?_cons_of_pos]
  · rfl
  · simpa using h'
  · simp only [Nat.zero_le, decide_true, Bool.true_and, Bool.or_eq_true, decide_eq_true_eq]
    intro hc
    rcases hc with hc | hc
    · omega
    · exact absurd hc (by decide)

/-- Codes are not translated for the newer devices. -/
theorem translateDevice_newer {version : Version} (h : 0x200 ≤ version) (code : Byte)
    (toVersion : Bool) : translateDevice code version toVersion = some code := by
  have hnew : ¬version ≤ 4 := fun hc => absurd (BitVec.le_trans h hc) (by decide)
  unfold translateDevice
  rw [if_neg hnew, translateProtocol_current]

/-! ### The loader's side -/

/-- The control packet of a block brings the loader to `main_prog`. -/
theorem mainRecv_block (others : Byte → Mcu → Option Mcu) {m : Mcu} {block : List Byte}
    {queue : List (List Byte)} (hlen : block.length = 68) (hrun : ¬halted m)
    (hout : m.out = controlPacket IG_DEV_WRITEBLOCK (blockArguments block) :: queue) :
    ∃ m', mainRecv others m = mainProg m' ∧ (∃ ram, m' = { m with ram := ram, out := queue }) ∧
      ¬halted m' ∧ ctlData m' 4 = blockArguments block := by
  obtain ⟨m', hread, hrest, -, hargs, hbelow⟩ :=
    @readControl_some m IG_DEV_WRITEBLOCK _ queue (blockArguments_length hlen).le hout
  refine ⟨m', ?_, hrest, ?_, ?_⟩
  · simp only [mainRecv, hread, Option.bind_eq_bind, Option.bind_some]
    rfl
  · unfold halted
    rw [hbelow loaderFlags (by decide) (by decide) (by decide)]
    exact hrun
  · apply List.ext_getElem
    · rw [ctlData, List.length_map, List.length_range, blockArguments_length hlen]
    · intro i h₁ h₂
      have hi : i < 4 := by rwa [blockArguments_length hlen] at h₂
      have h := hargs i hi
      rw [List.getD_eq_getElem _ _ h₂] at h
      rw [← h]
      simp [ctlData]

end IguanaIR
