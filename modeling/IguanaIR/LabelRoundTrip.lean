import IguanaIR.Listener
import IguanaIR.FlashProtection
import IguanaIR.Firmware.LastPage

/-! # The label of a device

A label is stored as code: `IG_DEV_SETID` writes a last page that sends the label, and
`IG_DEV_GETID` makes the device execute it.  Here the code that `generateIDBlock` makes is the
encoding of two calls of `write_packet`, the loader puts it on the page, the reader thread joins
the two packets into one response, and `getID` takes the alias from it. -/

namespace IguanaIR

open Firmware M8c

variable {fl : ℚ → ℚ}

/-! ### The generated code -/

theorem storeInstructions_eq : ∀ (start : Byte) (bytes : List Byte),
    storeInstructions start bytes = (storeOps start bytes).flatMap Op.encode
  | _, [] => rfl
  | start, b :: rest => by
      rw [storeInstructions, storeInstructions_eq (start + 1) rest, storeOps, List.flatMap_cons]
      rfl

theorem sendInstructions_eq (packet : List Byte) :
    sendInstructions 0xF8 0x94 false packet = (sendOps packet).flatMap Op.encode := by
  rw [sendInstructions, storeInstructions_eq, sendOps, List.flatMap_append]
  rfl

theorem storeInstructions_length : ∀ (start : Byte) (bytes : List Byte),
    (storeInstructions start bytes).length = 3 * bytes.length
  | _, [] => rfl
  | start, b :: rest => by
      rw [storeInstructions, List.length_append, storeInstructions_length, List.length_cons]
      simp only [List.length_cons, List.length_nil]
      omega

theorem sendInstructions_length (start address : Byte) (sizeInA : Bool) (packet : List Byte) :
    (sendInstructions start address sizeInA packet).length = 3 * packet.length + 7 := by
  rw [sendInstructions, List.length_append, storeInstructions_length]
  rfl

theorem idPackets_length (label : CString) (version : Version) :
    (idPackets label version).length = 16 := by
  simp [idPackets]

/-- **The code fits** behind the four bytes for the page number and the checksum. -/
theorem idInstructions_length (label : Option CString) (version : Version) :
    4 + (idInstructions label version).length ≤ 68 := by
  have hpackets (label : CString) : ((idPackets label version).take 8).length = 8 ∧
      ((idPackets label version).drop 8).length = 8 := by
    rw [List.length_take, List.length_drop, idPackets_length]
    exact ⟨rfl, rfl⟩
  match label with
  | none => exact (by decide : 4 + 1 ≤ 68)
  | some [] => exact (by decide : 4 + 1 ≤ 68)
  | some (b :: rest) =>
      obtain ⟨h₁, h₂⟩ := hpackets (b :: rest)
      simp only [idInstructions]
      split_ifs <;>
      · rw [List.length_append, List.length_append, sendInstructions_length,
          sendInstructions_length, h₁, h₂]
        exact (by decide : 4 + (3 * 8 + 7 + (3 * 8 + 7) + 1) ≤ 68)

theorem generateIDBlock_length (label : Option CString) (version : Version) :
    (generateIDBlock label version).length = 68 := by
  rw [generateIDBlock, List.length_append, List.length_take, List.length_append,
    List.length_replicate]
  simp only [List.length_cons, List.length_nil]
  omega

/-- The page: the code, and halts behind it. -/
theorem generateIDBlock_page {label : CString} (hne : label ≠ []) {version : Version}
    (hversion : 0x200 ≤ version) : ∃ rest, (generateIDBlock (some label) version).drop 4 =
      ((sendOps ((idPackets label version).take 8) ++
        sendOps ((idPackets label version).drop 8)).flatMap Op.encode ++ [0x7F]) ++ rest := by
  have hnew : 0x101 ≤ version := BitVec.le_trans (by decide) hversion
  have hcode : idInstructions (some label) version =
      (sendOps ((idPackets label version).take 8) ++
        sendOps ((idPackets label version).drop 8)).flatMap Op.encode ++ [0x7F] := by
    match label, hne with
    | b :: rest, _ =>
        simp only [idInstructions, if_pos hnew]
        rw [sendInstructions_eq, sendInstructions_eq, ← List.flatMap_append]
  have hlen := idInstructions_length (some label) version
  refine ⟨(List.replicate 64 0x30).take (64 - (idInstructions (some label) version).length), ?_⟩
  rw [← hcode, generateIDBlock, List.take_append, List.take_of_length_le (by omega)]
  rfl

/-! ### Storing the label -/

theorem givenLabel_some {bytes label : List Byte} (h : cString bytes = some label) :
    givenLabel (some bytes) = some (some label) := by
  rw [givenLabel, h]
  rfl

theorem checkIncoming_setID {version : Version} (hversion : 0x200 ≤ version) (dataLen : ℤ)
    (data : Option (List Byte)) :
    checkIncomingProtocol (some version) ⟨IG_DEV_SETID, dataLen, data⟩ false =
      some ⟨IG_DEV_SETID, CTL_TODEV, ANY_PAYLOAD, true, 2⟩ := by
  have htype : findTypeEntry IG_DEV_SETID version =
      some ⟨IG_DEV_SETID, CTL_TODEV, ANY_PAYLOAD, true, 2⟩ := findTypeEntry_newer rfl hversion
  have hmatch : payloadMatch (BitVec.ofNat 8 ANY_PAYLOAD) (BitVec.ofInt 8 dataLen) = true := by
    simp [payloadMatch]
  rw [checkIncomingProtocol, Option.getD_some, htype]
  simp [hmatch]

/-- The page of the label is the last one, which is not protected. -/
theorem writable_lastPage {received : List Byte} {magic high low : Byte}
    (h : ChecksumsAgree received high low) : Writable 0x7F magic high low received :=
  ⟨.inl (by decide), .inr h.sum.symm⟩

/-- **The label is stored**: the block is transmitted, and the loader writes it to the last page
and to no other. -/
theorem setID_stores (others : Byte → Mcu → Option Mcu) {d : Device} {bytes label : List Byte}
    (hversion : 0x200 ≤ d.idev.version) (hlabel : cString bytes = some label) (dataLen : ℤ)
    (hsent : d.usb.outcome.controlSent = true) (hall : d.usb.outcome.failAt = none) :
    ∃ d' a control packets,
      deviceTransaction fl d ⟨IG_DEV_SETID, dataLen, some bytes⟩ false = some (d', a) ∧
      d'.usb.wire = d.usb.wire ++ control :: packets ∧
      ∀ m queue, ¬halted m → (∀ p ∈ queue, p ≠ []) → m.out = control :: (packets ++ queue) →
        ∃ m', mainRecv others m = some m' ∧ m'.out = queue ∧
          m'.PageHolds 0x7F ((generateIDBlock (some label) d.idev.version).drop 4) ∧
          ∀ x, x ≠ 0x7F → m'.flash x = m.flash x := by
  have hblock := generateIDBlock_length (some label) d.idev.version
  obtain ⟨page, hpage⟩ :
    ∃ page, page = (generateIDBlock (some label) d.idev.version).drop 4 := ⟨_, rfl⟩
  have hlen : page.length = FLASH_BLOCK_SIZE := by
    rw [hpage, List.length_drop, hblock]
    rfl
  have hargs : blockArguments (generateIDBlock (some label) d.idev.version) =
      [0x7F, 0, (pageSum page).extractLsb' 8 8, (pageSum page).extractLsb' 0 8] := by
    rw [blockArguments_eq hblock, ← hpage]
    rfl
  have hreplace : replaceLabel ⟨IG_DEV_SETID, dataLen, some bytes⟩ d.idev.version =
      some ⟨IG_DEV_SETID, 68, some (generateIDBlock (some label) d.idev.version)⟩ := by
    rw [replaceLabel, if_pos rfl, givenLabel_some hlabel]
    rfl
  have hcode : deviceCode IG_DEV_SETID d.idev.version = IG_DEV_WRITEBLOCK := by
    rw [deviceCode, translateDevice_newer hversion]
    rfl
  obtain ⟨d', a, htransaction, hwire⟩ := @deviceTransaction_block fl d _ _ _ _
    (checkIncoming_setID hversion dataLen (some bytes)) hreplace hcode
    (show ¬hasDataStream IG_DEV_SETID by decide)
    (show IG_DEV_SETID ≠ IG_DEV_SETPINCONFIG by decide)
    (show IG_DEV_SETID ≠ IG_DEV_GETPINCONFIG by decide) hblock hsent hall
  obtain ⟨hne, hflat⟩ := sendPackets_page d.idev.maxPacketSize page d.idev.packetSize_pos
  rw [hargs, ← hpage] at hwire
  refine ⟨d', a, _, _, htransaction, hwire, ?_⟩
  intro m queue hrun hqueue hout
  have hall : ∀ p ∈ sendPackets d.idev.maxPacketSize page false ++ queue, p ≠ [] :=
    List.forall_mem_append.mpr ⟨hne, hqueue⟩
  obtain ⟨m', hm', hqueue', hdone⟩ := mainRecv_writes others hblock hargs hrun hall
    (by rw [hflat, hlen]) hout
  rw [hflat, if_pos (writable_lastPage (checksumsAgree hlen))] at hdone
  obtain ⟨high, low, hwritten⟩ := hdone
  refine ⟨m', hm', hqueue', ?_, hwritten.others⟩
  rw [← hpage]
  exact hwritten.holds

/-! ### Reading the label -/

/-- The two packets that the page sends. -/
theorem getID_sends (registers : Mcu → Byte × Byte) (others : Byte → Mcu → Option Mcu)
    {label : CString} (hne : label ≠ []) {version : Version} (hversion : 0x200 ≤ version) {fuel : ℕ}
    (hfuel : 23 ≤ fuel) {m : Mcu} {queue : List (List Byte)} (hrun : ¬halted m)
    (hpage : m.PageHolds 0x7F ((generateIDBlock (some label) version).drop 4))
    (hout : m.out = controlPacket IG_DEV_EXECUTE [] :: queue) :
    ∃ m', mainRecv (withExecute registers fuel others) m = some m' ∧ m'.out = queue ∧
      m'.sent = m.sent ++ [(idPackets label version).take 8, (idPackets label version).drop 8] := by
  obtain ⟨m₁, hmain, hrun₁, hflash, hout₁, hsent₁⟩ :=
    mainRecv_execute registers fuel others hrun hout
  obtain ⟨rest, hcode⟩ := generateIDBlock_page hne hversion
  have hpage₁ : m₁.PageHolds 0x7F ((generateIDBlock (some label) version).drop 4) := by
    intro i hi
    rw [hflash, hpage i hi]
  have hlen : ((generateIDBlock (some label) version).drop 4).length = FLASH_BLOCK_SIZE := by
    rw [List.length_drop, generateIDBlock_length]
    rfl
  rw [hcode] at hpage₁ hlen
  obtain ⟨ram, hsends⟩ := executeBody_sends registers hrun₁
    (by rw [List.length_take, idPackets_length]; rfl)
    (by rw [List.length_drop, idPackets_length]) hfuel hpage₁
    (by rw [← hlen]; exact (List.prefix_append _ rest).length_le)
  exact ⟨_, hmain.trans hsends, hout₁, congrArg (· ++ _) hsent₁⟩

theorem findTypeEntry_getID (version : Version) :
    findTypeEntry IG_DEV_GETID version = some ⟨IG_DEV_GETID, CTL_TODEV, NO_PAYLOAD, true, 12⟩ :=
  findTypeEntry_single rfl version

/-- The response that the two packets make. -/
def idResponse (label : CString) (version : Version) : DataPacket :=
  ⟨IG_DEV_GETID, 12, some ((idPackets label version).drop 4)⟩

/-- **The reader joins the packets**: the second one is no packet of its own. -/
theorem getID_joined (label : CString) {settings : ReaderSettings}
    (hversion : 0x200 ≤ settings.version) (hsize : 8 ≤ settings.maxPacketSize) (prev : ℤ) :
    handleIncomingPackets settings (.waiting prev)
        [.data ((idPackets label settings.version).take 8),
          .data ((idPackets label settings.version).drop 8)] =
      some (.waiting 8, [.response (idResponse label settings.version)]) := by
  obtain ⟨name, hname⟩ : ∃ name : List Byte,
      name = ((label.take 12).map labelByte ++ List.replicate 12 0).take 12 := ⟨_, rfl⟩
  have hlen : name.length = 12 := by simp [hname]
  have hpackets : idPackets label settings.version =
      [CTL_START, CTL_START, CTL_FROMDEV, IG_DEV_GETID] ++ name := by
    rw [idPackets, translateDevice_newer hversion, hname]
    rfl
  rw [idResponse, hpackets]
  match name, hlen with
  | [b₀, b₁, b₂, b₃, b₄, b₅, b₆, b₇, b₈, b₉, b₁₀, b₁₁], _ =>
      have hstart : startPacket settings.version
          [CTL_START, CTL_START, CTL_FROMDEV, IG_DEV_GETID, b₀, b₁, b₂, b₃] =
            ⟨IG_DEV_GETID, 4, some [b₀, b₁, b₂, b₃]⟩ := by
        unfold startPacket
        rw [if_pos (by rfl)]
        change (⟨(translateDevice IG_DEV_GETID settings.version false).getD _, _, _⟩ :
          DataPacket) = _
        rw [translateDevice_newer hversion]
        rfl
      have houter : handleIncoming settings (.waiting prev)
          (.data [CTL_START, CTL_START, CTL_FROMDEV, IG_DEV_GETID, b₀, b₁, b₂, b₃]) =
            some (.collecting ⟨IG_DEV_GETID, CTL_TODEV, NO_PAYLOAD, true, 12⟩
              ⟨IG_DEV_GETID, 4, some [b₀, b₁, b₂, b₃]⟩, []) := by
        change some (outerPacket _ _) = _
        unfold outerPacket
        rw [hstart]
        dsimp only
        rw [findTypeEntry_getID]
        rfl
      have hinner : handleIncoming settings
          (.collecting ⟨IG_DEV_GETID, CTL_TODEV, NO_PAYLOAD, true, 12⟩
            ⟨IG_DEV_GETID, 4, some [b₀, b₁, b₂, b₃]⟩)
          (.data [b₄, b₅, b₆, b₇, b₈, b₉, b₁₀, b₁₁]) =
            some (.waiting 8, [.response ⟨IG_DEV_GETID, 12,
              some [b₀, b₁, b₂, b₃, b₄, b₅, b₆, b₇, b₈, b₉, b₁₀, b₁₁]⟩]) := by
        change (if settings.maxPacketSize < 8 then _ else _) = _
        rw [if_neg (by omega)]
        rfl
      change (Transition.run (handleIncoming settings) (.waiting prev)
        [.data [CTL_START, CTL_START, CTL_FROMDEV, IG_DEV_GETID, b₀, b₁, b₂, b₃],
          .data [b₄, b₅, b₆, b₇, b₈, b₉, b₁₀, b₁₁]]).map _ = _
      simp only [Transition.run, houter, hinner, Option.bind_eq_bind, Option.bind_some,
        Option.map_some]
      rfl

/-! ### The alias -/

theorem cString_ne_zero : ∀ {bytes label : List Byte}, cString bytes = some label →
    ∀ b ∈ label, b ≠ 0
  | [], _, h => by cases h
  | b :: rest, label, h => by
      rw [cString] at h
      split_ifs at h with hzero
      · obtain rfl := Option.some.inj h
        simp
      · obtain ⟨tail, htail, rfl⟩ := Option.map_eq_some_iff.mp h
        intro b' hb'
        cases List.mem_cons.mp hb' with
        | inl heq => rwa [heq]
        | inr hmem => exact cString_ne_zero htail b' hmem

theorem labelByte_ne_zero {b : Byte} (h : b ≠ 0) : labelByte b ≠ 0 := by
  unfold labelByte
  split_ifs
  · decide
  · exact h

/-- A string that is padded with nulls is copied up to the first of them. -/
theorem strncpy_padded : ∀ (n k : ℕ) (s : List Byte), n ≤ s.length + k → (∀ b ∈ s, b ≠ 0) →
    strncpy n (s ++ List.replicate k 0) = some (s.take n)
  | 0, _, _, _, _ => rfl
  | n + 1, k, [], hlen, _ => by
      rw [List.length_nil] at hlen
      obtain ⟨j, rfl⟩ : ∃ j, k = j + 1 := ⟨k - 1, by omega⟩
      rfl
  | n + 1, k, b :: s, hlen, hne => by
      rw [List.length_cons] at hlen
      have ih := strncpy_padded n k s (by omega) (fun b' hb' => hne b' (List.mem_cons_of_mem _ hb'))
      rw [List.cons_append, strncpy, if_neg (hne b (List.mem_cons_self ..)), ih]
      rfl

/-- Only the first `n` bytes matter. -/
theorem strncpy_take : ∀ (n : ℕ) (s : List Byte), strncpy n (s.take n) = strncpy n s
  | 0, _ => rfl
  | _ + 1, [] => rfl
  | n + 1, b :: s => by
      rw [List.take_succ_cons, strncpy, strncpy, strncpy_take n s]

theorem strncpy_label {label : CString} (hne : ∀ b ∈ label, b ≠ 0) (version : Version) :
    strncpy 12 ((idPackets label version).drop 4) = some ((label.take 12).map labelByte) := by
  have hbytes : ∀ b ∈ (label.take 12).map labelByte, b ≠ 0 := by
    intro b hb
    obtain ⟨b', hb', rfl⟩ := List.mem_map.mp hb
    exact labelByte_ne_zero (hne b' (List.mem_of_mem_take hb'))
  change strncpy 12 (((label.take 12).map labelByte ++ List.replicate 12 0).take 12) = _
  rw [strncpy_take, strncpy_padded 12 12 _ (by omega) hbytes, List.take_of_length_le]
  rw [List.length_map, List.length_take]
  omega

/-- A transaction that asks for the label writes one control packet, or nothing. -/
theorem getID_transaction {d : Device} (hversion : 0x200 ≤ d.idev.version) :
    ∃ packets a, deviceTransaction fl d (bareRequest IG_DEV_GETID) false =
        some (d.wrote packets, a) ∧
      (d.usb.outcome.controlSent = true → packets = [controlPacket IG_DEV_EXECUTE []] ∧
        a = ackAnswer ⟨IG_DEV_GETID, CTL_TODEV, NO_PAYLOAD, true, 12⟩ (bareRequest IG_DEV_GETID)
          d.usb.outcome.ack) := by
  have hcheck : checkIncomingProtocol (some d.idev.version) (bareRequest IG_DEV_GETID) false =
      some ⟨IG_DEV_GETID, CTL_TODEV, NO_PAYLOAD, true, 12⟩ := by
    rw [checkIncomingProtocol, Option.getD_some, bareRequest, findTypeEntry_getID]
    rfl
  have hcode : deviceCode IG_DEV_GETID d.idev.version = IG_DEV_EXECUTE := by
    rw [deviceCode, translateDevice_newer hversion]
    rfl
  have hprepare (checks : Device → Option (Device × Bool)) :
      prepare fl checks d (bareRequest IG_DEV_GETID) =
        some (d, ⟨controlPacket IG_DEV_EXECUTE [], 0, bareRequest IG_DEV_GETID⟩) := by
    have hlabel : replaceLabel ⟨IG_DEV_GETID, 0, none⟩ d.idev.version =
        some ⟨IG_DEV_GETID, 0, none⟩ := rfl
    have hforget : forgetFeatures d IG_DEV_GETID = d := rfl
    simp only [prepare, bareRequest, hlabel, hforget, hcode, Option.bind_eq_bind, Option.bind_some]
    rfl
  have hstream : dataStream d ⟨controlPacket IG_DEV_EXECUTE [], 0, bareRequest IG_DEV_GETID⟩
      d.usb.outcome.failAt = some (true, []) := rfl
  rw [deviceTransaction_whole fl d (show IG_DEV_GETID ≠ IG_DEV_SETPINCONFIG by decide)
    (show IG_DEV_GETID ≠ IG_DEV_GETPINCONFIG by decide), wholeTransaction, transaction, hcheck]
  simp only [hprepare, Option.bind_eq_bind, Option.bind_some]
  unfold transmit
  dsimp only
  rw [hstream]
  cases hsent : d.usb.outcome.controlSent with
  | false => exact ⟨[], _, rfl, fun h => absurd h Bool.false_ne_true⟩
  | true => exact ⟨_, _, rfl, fun _ => ⟨rfl, rfl⟩⟩

/-- The response is accepted. -/
theorem ackAnswer_label (label : CString) (version : Version) :
    ackAnswer ⟨IG_DEV_GETID, CTL_TODEV, NO_PAYLOAD, true, 12⟩ (bareRequest IG_DEV_GETID)
        (.reply (idResponse label version)) =
      ⟨true, bareRequest IG_DEV_GETID, some (idResponse label version)⟩ := rfl

/-- The outcomes of `getID`: of a dummy call in early bodies, and of the call that is answered. -/
def AnswersID (response : DataPacket) (d : Device) : Prop :=
  ∃ dummy failAt heap rest, d.usb.outcomes = dummy ++ ⟨true, failAt, .reply response, heap⟩ :: rest ∧
    dummy.length = if d.idev.version &&& 0x00FF < 0x05 then 1 else 0

/-- The dummy call leaves the outcome of the call that is answered. -/
theorem dummyGetID_answered {d : Device} {response : DataPacket}
    (hversion : 0x200 ≤ d.idev.version) (hbody : hasBody d.idev.version)
    (hanswer : AnswersID response d) :
    ∃ d₁ dummy, dummyGetID fl d = some d₁ ∧ d₁.idev = d.idev ∧
      d₁.usb.wire = d.usb.wire ++ dummy ∧
      ∃ failAt heap, d₁.usb.outcome = ⟨true, failAt, .reply response, heap⟩ := by
  obtain ⟨dummy, failAt, heap, rest, houtcomes, hlen⟩ := hanswer
  unfold dummyGetID
  by_cases hearly : d.idev.version &&& 0x00FF < 0x05
  · rw [if_pos hearly] at hlen
    obtain ⟨o, rfl⟩ := List.length_eq_one_iff.mp hlen
    obtain ⟨packets, a, htransaction, -⟩ := @getID_transaction fl d hversion
    rw [if_pos ⟨hbody.2, hearly⟩, htransaction]
    refine ⟨_, packets, rfl, rfl, rfl, failAt, heap, ?_⟩
    rw [Device.wrote, Usb.outcome, houtcomes]
    rfl
  · rw [if_neg hearly] at hlen
    obtain rfl := List.length_eq_zero_iff.mp hlen
    rw [if_neg (fun h => hearly h.2)]
    refine ⟨d, [], rfl, rfl, (List.append_nil _).symm, failAt, heap, ?_⟩
    rw [Usb.outcome, houtcomes]
    rfl

/-- **`getID` stores the label** of the response. -/
theorem getID_stores {server : Server} (hlabels : server.readLabels = true) {d : Device}
    {label : CString} (hversion : 0x200 ≤ d.idev.version) (hbody : hasBody d.idev.version) (hne : ∀ b ∈ label, b ≠ 0)
    (hanswer : AnswersID (idResponse label d.idev.version) d) :
    ∃ d' dummy, getID fl server d = some d' ∧
      d'.usb.wire = d.usb.wire ++ dummy ++ [controlPacket IG_DEV_EXECUTE []] ∧
      d'.idev.names.userAlias = some ((label.take 12).map labelByte) := by
  obtain ⟨d₀, hd₀⟩ : ∃ d₀, d₀ = setAliases d (some (decimal d.idev.location.1.toNat ++ ascii "-" ++
    decimal d.idev.location.2.toNat)) d.idev.names.userAlias := ⟨_, rfl⟩
  have hversion₀ : d₀.idev.version = d.idev.version := by
    rw [hd₀]
    rfl
  have husb₀ : d₀.usb = d.usb := by
    rw [hd₀]
    rfl
  have hreads : getID fl server d = readLabel fl d₀ := by
    have hnew : (d.idev.version == 0x00FF) = false := by
      apply beq_false_of_ne
      intro hc
      rw [hc] at hversion
      exact absurd hversion (by decide)
    unfold getID
    dsimp only
    rw [hlabels, ← hd₀, hversion₀, hnew, beq_false_of_ne hbody.1]
    rfl
  obtain ⟨d₁, dummy, hdummy, hidev, hwire, failAt, heap, houtcome⟩ :=
    @dummyGetID_answered fl d₀ (idResponse label d.idev.version) (by rwa [hversion₀])
      (by rwa [hversion₀]) (by
        unfold AnswersID
        rwa [husb₀, hversion₀])
  obtain ⟨d₂, hd₂⟩ : ∃ d₂, d₂ = setAliases d₁ d₁.idev.names.locAlias none := ⟨_, rfl⟩
  have husb₂ : d₂.usb = d₁.usb := by
    rw [hd₂]
    rfl
  have hversion₂ : d₂.idev.version = d.idev.version := by
    rw [hd₂, ← hversion₀, ← hidev]
    rfl
  obtain ⟨packets, a, htransaction, hanswered⟩ := @getID_transaction fl d₂ (by rwa [hversion₂])
  rw [show d₂.usb.outcome = _ from (congrArg Usb.outcome husb₂).trans houtcome] at hanswered
  obtain ⟨rfl, rfl⟩ := hanswered rfl
  obtain ⟨d₃, hd₃⟩ : ∃ d₃, d₃ = d₂.wrote [controlPacket IG_DEV_EXECUTE []] := ⟨_, rfl⟩
  have hstore : storeLabel d₃ (idResponse label d.idev.version) =
      some (setAliases d₃ d₃.idev.names.locAlias (some ((label.take 12).map labelByte))) := by
    rw [storeLabel, idResponse, Option.bind_some, strncpy_label hne]
    rfl
  refine ⟨setAliases d₃ d₃.idev.names.locAlias (some ((label.take 12).map labelByte)), dummy, ?_, ?_,
    rfl⟩
  · rw [hreads, readLabel, hdummy]
    simp only [Option.bind_eq_bind, Option.bind_some, ← hd₂, htransaction, ← hd₃, ackAnswer_label,
      if_true]
    exact hstore
  · rw [hd₃]
    change d₂.usb.wire ++ _ = _
    rw [husb₂, hwire, husb₀]

/-! ### The round trip -/

/-- **Labels come back.**  The block for `IG_DEV_SETID` fits, and the loader writes it to the last
page.  As long as that page is there, `IG_DEV_GETID` gets two packets that the reader joins into one
response of 12 bytes, from which `getID` stores the start of the label. -/
theorem label_round_trip (registers : Mcu → Byte × Byte) (others : Byte → Mcu → Option Mcu)
    {version : Version} (hversion : 0x200 ≤ version) (hbody : hasBody version)
    {bytes label : List Byte} (hlabel : cString bytes = some label) (hne : label ≠ []) :
    4 + (idInstructions (some label) version).length ≤ 68 ∧
    (∀ (d : Device) (dataLen : ℤ), d.idev.version = version → d.usb.outcome.controlSent = true →
      d.usb.outcome.failAt = none → ∃ d' a control packets,
        deviceTransaction fl d ⟨IG_DEV_SETID, dataLen, some bytes⟩ false = some (d', a) ∧
        d'.usb.wire = d.usb.wire ++ control :: packets ∧
        ∀ m queue, ¬halted m → (∀ p ∈ queue, p ≠ []) → m.out = control :: (packets ++ queue) →
          ∃ m', mainRecv others m = some m' ∧ m'.out = queue ∧
            m'.PageHolds 0x7F ((generateIDBlock (some label) version).drop 4) ∧
            ∀ x, x ≠ 0x7F → m'.flash x = m.flash x) ∧
    ∃ p₁ p₂ response, response.code = IG_DEV_GETID ∧ response.dataLen = 12 ∧
      (∀ fuel m queue, 23 ≤ fuel → ¬halted m →
        m.PageHolds 0x7F ((generateIDBlock (some label) version).drop 4) →
        m.out = controlPacket IG_DEV_EXECUTE [] :: queue →
        ∃ m', mainRecv (withExecute registers fuel others) m = some m' ∧ m'.out = queue ∧
          m'.sent = m.sent ++ [p₁, p₂]) ∧
      (∀ settings prev, settings.version = version → 8 ≤ settings.maxPacketSize →
        handleIncomingPackets settings (.waiting prev) [.data p₁, .data p₂] =
          some (.waiting 8, [.response response])) ∧
      ∀ (server : Server) (d : Device), server.readLabels = true → d.idev.version = version →
        AnswersID response d → ∃ d' dummy, getID fl server d = some d' ∧
          d'.usb.wire = d.usb.wire ++ dummy ++ [controlPacket IG_DEV_EXECUTE []] ∧
          d'.idev.names.userAlias = some ((label.take 12).map labelByte) := by
  refine ⟨idInstructions_length _ _, ?_, (idPackets label version).take 8,
    (idPackets label version).drop 8, idResponse label version, rfl, rfl, ?_, ?_, ?_⟩
  · rintro d dataLen rfl hsent hall
    exact setID_stores others hversion hlabel dataLen hsent hall
  · intro fuel m queue hfuel hrun hpage hout
    exact getID_sends registers others hne hversion hfuel hrun hpage hout
  · rintro settings prev rfl hsize
    exact getID_joined label hversion hsize prev
  · rintro server d hlabels rfl hanswer
    exact getID_stores hlabels hversion hbody (cString_ne_zero hlabel) hanswer

/-- A label of 13 bytes with a bar and a newline in it, on the current firmware. -/
theorem label_round_trip_cut : ∃ response, response.code = IG_DEV_GETID ∧ ∃ d',
    getID Binary64.nearest ⟨true, []⟩ (startWorker 8 (by decide) ⟨0, ascii "0", none, none⟩ (1, 2)
      0x0309 ⟨[⟨true, none, .reply response, []⟩], []⟩) = some d' ∧
    d'.idev.names.userAlias = some (ascii "my_label_lon") := by
  obtain ⟨-, -, p₁, p₂, response, hcode, -, -, -, hstores⟩ := @label_round_trip Binary64.nearest
    (fun _ => (0, 0)) (fun _ => some) 0x0309 (by decide) (by decide)
    (ascii "my|label\nlong" ++ [0]) (ascii "my|label\nlong") rfl (by decide)
  obtain ⟨d', -, hget, -, halias⟩ := hstores ⟨true, []⟩ (startWorker 8 (by decide)
    ⟨0, ascii "0", none, none⟩ (1, 2) 0x0309 ⟨[⟨true, none, .reply response, []⟩], []⟩) rfl rfl
    ⟨[], none, [], [], rfl, (if_neg (show ¬(0x0309 : Version) &&& 0x00FF < 0x05 by decide)).symm⟩
  exact ⟨response, hcode, d', hget, halias⟩

end IguanaIR
