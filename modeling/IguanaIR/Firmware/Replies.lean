import IguanaIR.Firmware.Silent

/-! # The replies of the handlers

What each handler writes to the IN endpoint: behind the silent steps, the calls of
`write_control` and `write_packet`.  `AnswersWith` is the reply that the host expects, a header
with the code and some data.  The pin functions differ on a device without free pins, where the
error may come twice, and the pin configuration travels in a packet of its own. -/

namespace IguanaIR.Firmware

/-! ### Writing packets -/

/-- The start of a control packet for the host. -/
def replyHeader (code : Byte) : List Byte := [0, 0, TO_PC, code]

/-- These packets were sent, and what decides about the next ones is as it was. -/
structure Sent (packets : List (List Byte)) (m m' : Mcu) : Prop where
  sent : m'.sent = m.sent ++ packets
  halted_iff : halted m' ↔ halted m
  code : m'.ctl CCODE = m.ctl CCODE

theorem Sent.of_silent {m₁ m₂ m₃ : Mcu} {packets : List (List Byte)} (h : Silent m₁ m₂)
    (h' : Sent packets m₂ m₃) : Sent packets m₁ m₃ :=
  ⟨by rw [h'.sent, h.sent], h'.halted_iff.trans h.halted_iff, h'.code.trans h.code⟩

theorem writePacket_sent {m : Mcu} (hrun : ¬halted m) (size data : Byte) :
    ∃ m', writePacket size data m = some m' ∧
      Sent [((m.write tmp1 size).write tmp2 data).readAll data size.toNat] m m' := by
  have hquiet : Silent m ((m.write tmp1 size).write tmp2 data) :=
    (Silent.write _ (by decide) (by decide)).trans (.write _ (by decide) (by decide))
  unfold writePacket
  dsimp only
  rw [if_neg (fun hh => hrun (hquiet.halted_iff.mp hh))]
  exact ⟨_, rfl, rfl, hquiet.halted_iff, hquiet.code⟩

/-- **`write_control`** sends the header, the code that is in the packet, and `k` bytes. -/
theorem writeControl_sent {m : Mcu} (hrun : ¬halted m) {k : ℕ} (hk : k ≤ 4) :
    ∃ m' data, writeControl (CTL_BASE_SIZE + BitVec.ofNat 8 k) m = some m' ∧ data.length = k ∧
      Sent [replyHeader (m.ctl CCODE) ++ data] m m' := by
  obtain ⟨m₀, hm₀⟩ : ∃ m₀, m₀ = ((m.setCtl 0 0).setCtl 1 0).setCtl 2 TO_PC := ⟨_, rfl⟩
  have hquiet : Silent m m₀ := by
    rw [hm₀]
    exact ((Silent.write _ (by decide) (by decide)).trans (.write _ (by decide) (by decide))).trans
      (.write _ (by decide) (by decide))
  have hsize : (CTL_BASE_SIZE + BitVec.ofNat 8 k).toNat = 4 + k := by
    have hbase : CTL_BASE_SIZE.toNat = 4 := rfl
    rw [BitVec.toNat_add, hbase, BitVec.toNat_ofNat]
    omega
  obtain ⟨m', hm', hsent⟩ := writePacket_sent (m := m₀) (fun hh => hrun (hquiet.halted_iff.mp hh))
    (CTL_BASE_SIZE + BitVec.ofNat 8 k) controlPkt
  have hheader (size : Byte) : (List.range 4).map (fun i => ((m₀.write tmp1 size).write tmp2
      controlPkt).ram (controlPkt + BitVec.ofNat 8 i)) = replyHeader (m.ctl CCODE) := by
    rw [← hquiet.code, hm₀]
    rfl
  rw [hsize, Mcu.readAll, List.range_add, List.map_append, hheader] at hsent
  rw [writeControl, ← hm₀]
  refine ⟨m', _, hm', ?_, .of_silent hquiet hsent⟩
  rw [List.length_map, List.length_map, List.length_range]

/-- The packet is the answer with this code and `k` bytes of data. -/
def AnswersWith (code : Byte) (k : ℕ) (m : Mcu) (result : Option Mcu) : Prop :=
  ∃ m' data, result = some m' ∧ data.length = k ∧ m'.sent = m.sent ++ [replyHeader code ++ data]

theorem AnswersWith.of_sent {m m' : Mcu} {code : Byte} {k : ℕ} {result : Option Mcu}
    (h : m'.sent = m.sent) (h' : AnswersWith code k m' result) : AnswersWith code k m result := by
  obtain ⟨m'', data, hresult, hlen, hsent⟩ := h'
  exact ⟨m'', data, hresult, hlen, by rw [hsent, h]⟩

theorem writeControl_answers {m : Mcu} (hrun : ¬halted m) {k : ℕ} (hk : k ≤ 4) :
    AnswersWith (m.ctl CCODE) k m (writeControl (CTL_BASE_SIZE + BitVec.ofNat 8 k) m) := by
  obtain ⟨m', data, hm', hlen, hsent⟩ := writeControl_sent hrun hk
  exact ⟨m', data, hm', hlen, hsent.sent⟩

/-- An ack behind silent steps carries the code of the request. -/
theorem ack_answers {m m' : Mcu} (hrun : ¬halted m) (h : Silent m m') :
    AnswersWith (m.ctl CCODE) 0 m (ack m') := by
  rw [← h.code]
  exact .of_sent h.sent (writeControl_answers (fun hh => hrun (h.halted_iff.mp hh)) (Nat.zero_le 4))

/-- A code and arguments that are put into the packet first. -/
theorem setCtl_answers {m : Mcu} (hrun : ¬halted m) (code v w : Byte) :
    AnswersWith code 2 m (writeControl (CTL_BASE_SIZE + 2)
      (((m.setCtl CCODE code).setCtl CDATA v).setCtl (CDATA + 1) w)) := by
  have hcode : (((m.setCtl CCODE code).setCtl CDATA v).setCtl (CDATA + 1) w).ctl CCODE = code := by
    unfold Mcu.setCtl Mcu.ctl
    rw [Mcu.write_ne _ _ (by decide), Mcu.write_ne _ _ (by decide), Mcu.write_same]
  have hhalted : halted (((m.setCtl CCODE code).setCtl CDATA v).setCtl (CDATA + 1) w) ↔
      halted m := by
    unfold halted Mcu.setCtl
    rw [Mcu.write_ne _ _ (by decide), Mcu.write_ne _ _ (by decide), Mcu.write_ne _ _ (by decide)]
  have h := writeControl_answers (fun hh => hrun (hhalted.mp hh)) (show 2 ≤ 4 by omega)
  rwa [hcode] at h

/-! ### What the handlers send -/

/-- The state in which a handler starts: the packet is taken off the queue. -/
structure Entered (code : Byte) (arguments : List Byte) (queue : List (List Byte)) (m m' : Mcu) :
    Prop where
  sent : m'.sent = m.sent
  out : m'.out = queue
  features : m'.features = m.features
  running : ¬halted m'
  code : m'.ctl CCODE = code
  argument : ∀ i < 4, m'.ctl (CDATA + BitVec.ofNat 8 i) = arguments.getD i 0

theorem readControl_enters {m : Mcu} {code : Byte} {arguments : List Byte}
    {queue : List (List Byte)} (hlen : arguments.length ≤ 4) (hrun : ¬halted m)
    (hout : m.out = ([0, 0, FROM_PC, code] ++ arguments) :: queue) :
    ∃ m', readControl m = some (m', code) ∧ Entered code arguments queue m m' := by
  obtain ⟨m', hread, ⟨ram, hm'⟩, hcode, harg, hbelow⟩ := readControl_some hlen hout
  refine ⟨m', hread, ?_, ?_, ?_, ?_, hcode, harg⟩
  · rw [hm']
  · rw [hm']
  · rw [hm']
  · unfold halted
    rw [hbelow loaderFlags (by decide) (by decide) (by decide)]
    exact hrun

theorem bodyFlags_enters {m m' : Mcu} {code : Byte} {arguments : List Byte}
    {queue : List (List Byte)} (h : Entered code arguments queue m m') :
    (bodyFlags (m'.write tmp1 code)).ram tmp1 = code ∧
      Entered code arguments queue m (bodyFlags (m'.write tmp1 code)) := by
  have hquiet : Silent m' (bodyFlags (m'.write tmp1 code)) :=
    (Silent.write _ (by decide) (by decide)).trans (bodyFlags_silent _)
  refine ⟨?_, ?_, ?_, ?_, ?_, ?_, fun i hi => ?_⟩
  · rw [bodyFlags_ram _ (by decide) (by decide), Mcu.write_same]
  · rw [hquiet.sent, h.sent]
  · rw [hquiet.out, h.out]
  · rw [hquiet.features, h.features]
  · exact fun hh => h.running (hquiet.halted_iff.mp hh)
  · rw [hquiet.code, h.code]
  · rw [← h.argument i hi]
    have hne : ∀ i < 4, controlPkt + (CDATA + BitVec.ofNat 8 i) ≠ bufferPtr ∧
        controlPkt + (CDATA + BitVec.ofNat 8 i) ≠ loaderFlags ∧
        controlPkt + (CDATA + BitVec.ofNat 8 i) ≠ tmp1 := by decide
    obtain ⟨h₁, h₂, h₃⟩ := hne i hi
    unfold Mcu.ctl
    rw [bodyFlags_ram _ h₁ h₂, Mcu.write_ne _ _ h₃]

/-- **A packet for the body** reaches its handler. -/
theorem mainRecv_body (others : Byte → Mcu → Option Mcu) {m : Mcu} {code : Byte}
    {arguments : List Byte} {queue : List (List Byte)} (hlen : arguments.length ≤ 4)
    (hrun : ¬halted m) (hout : m.out = ([0, 0, FROM_PC, code] ++ arguments) :: queue)
    (hbody : code ∉ [0, IG_DEV_GETVERSION, IG_DEV_WRITEBLOCK, IG_DEV_CHECKSUM, IG_DEV_RESET]) :
    ∃ m', mainRecv others m = bodyHandler others code m' ∧ Entered code arguments queue m m' := by
  obtain ⟨m₁, hread, hentered⟩ := readControl_enters hlen hrun hout
  obtain ⟨hcode, hentered'⟩ := bodyFlags_enters hentered
  simp only [List.mem_cons, List.not_mem_nil, or_false, not_or] at hbody
  obtain ⟨h₀, h₁, h₂, h₃, h₄⟩ := hbody
  refine ⟨_, ?_, hentered'⟩
  simp only [mainRecv, hread, Option.bind_eq_bind, Option.bind_some, if_neg h₀, if_neg h₁,
    if_neg h₂, if_neg h₃, if_neg h₄, bodyMain, hcode]

/-- A buffer of data is read; only the queue is shorter. -/
theorem readBuffer_reads {m : Mcu} {queue : List (List Byte)} (hrun : ¬halted m)
    (hpos : m.ctl CDATA ≠ 0) (hle : (m.ctl CDATA).toNat ≤ 150) (hne : ∀ p ∈ m.out, p ≠ [])
    (hout : Chunks.dropCover (m.ctl CDATA).toNat m.out = some queue) :
    ∃ m', readBuffer m = some (m', true) ∧ Silent { m with out := queue } m' := by
  have hout' : Chunks.dropCover (consumed (m.ctl CDATA).toNat) m.out = some queue := by
    rwa [consumed, Nat.min_eq_left (by omega)]
  obtain ⟨m', hread, hfilled⟩ := readBufferReal_copies hpos hrun hne hout'
  rw [if_pos hle] at hread
  have hstart : Silent m (startReading (m.ctl CDATA) m) := by
    refine ((Silent.write (a := bufferPtr) buffer (by decide) (by decide)).trans
      (.write (a := tmp1) (m.ctl CDATA) (by decide) (by decide))).trans ?_
    exact ⟨rfl, rfl, rfl, halted_bufclr _, Mcu.write_ne _ _ (by decide)⟩
  have hstart' : Silent { m with out := queue }
      { startReading (m.ctl CDATA) m with out := queue } :=
    ⟨hstart.sent, rfl, hstart.features, hstart.halted_iff, hstart.code⟩
  exact ⟨m', hread, hstart'.trans (.of_keepsRest hfilled.keeps.keepsRest)⟩

/-! ### Requests that every device answers -/

theorem execSsc_read (m : Mcu) : ∃ ram, execSsc .read m = { m with ram := ram } ∧
    ram loaderFlags = m.ram loaderFlags := by
  obtain ⟨m₀, hm₀⟩ : ∃ m₀, m₀ = sscParameters .read m := ⟨_, rfl⟩
  have hlength : ((List.range FLASH_BLOCK_SIZE).map (m₀.flash (m₀.ram BLOCKID))).length = 64 := by
    rw [List.length_map, List.length_range, FLASH_BLOCK_SIZE]
  have hptr : m₀.ram POINTER = buffer := by
    rw [hm₀]
    rfl
  have hbuf : buffer.toNat = 93 := rfl
  have hflags : loaderFlags.toNat = 244 := rfl
  obtain ⟨ram, hall⟩ := writeAll_eq ((List.range FLASH_BLOCK_SIZE).map (m₀.flash (m₀.ram BLOCKID)))
    m₀ (m₀.ram POINTER)
  refine ⟨ram, ?_, ?_⟩
  · change m₀.writeAll _ _ = _ at hall
    unfold execSsc
    rw [← hm₀]
    dsimp only
    rw [hall, hm₀]
    rfl
  · have h := Mcu.writeAll_ram_of_lt
      ((List.range FLASH_BLOCK_SIZE).map (m₀.flash (m₀.ram BLOCKID))) m₀ (m₀.ram POINTER)
      loaderFlags (by rw [hptr]; omega) (by rw [hptr]; omega)
    rw [hall] at h
    refine h.trans ?_
    rw [hm₀]
    rfl

theorem getversion_answers {m : Mcu} (hrun : ¬halted m) :
    AnswersWith IG_DEV_GETVERSION 2 m (mainGetversion m) := by
  obtain ⟨ram, hread, hflags⟩ := execSsc_read (m.write tmp3 (BitVec.ofNat 8 (BODY_JUMPS / 64)))
  have hrun' : ¬halted ({ m with ram := ram } : Mcu) := by
    change ¬ram loaderFlags &&& FLAG_HALTED ≠ 0
    rw [hflags, Mcu.write_ne _ _ (by decide)]
    exact hrun
  have h := setCtl_answers hrun' IG_DEV_GETVERSION
    ((({ m with ram := ram } : Mcu).setCtl CCODE IG_DEV_GETVERSION).ram (buffer + 1)) VERSION_ID_HIGH
  unfold mainGetversion
  dsimp only
  rw [hread]
  exact h

theorem getFeatures_answers {m : Mcu} (hrun : ¬halted m) :
    AnswersWith IG_DEV_GETFEATURES 2 m (getFeaturesBody m) :=
  setCtl_answers hrun IG_DEV_GETFEATURES _ _

theorem getBufSize_answers {m : Mcu} (hrun : ¬halted m) :
    AnswersWith IG_DEV_GETBUFSIZE 1 m (getBufSizeBody m) := by
  have hcode : ((m.setCtl CCODE IG_DEV_GETBUFSIZE).setCtl CDATA BUFFER_SIZE).ctl CCODE =
      IG_DEV_GETBUFSIZE := by
    unfold Mcu.setCtl Mcu.ctl
    rw [Mcu.write_ne _ _ (by decide), Mcu.write_same]
  have hhalted : halted ((m.setCtl CCODE IG_DEV_GETBUFSIZE).setCtl CDATA BUFFER_SIZE) ↔
      halted m := by
    unfold halted Mcu.setCtl
    rw [Mcu.write_ne _ _ (by decide), Mcu.write_ne _ _ (by decide)]
  have h := writeControl_answers (fun hh => hrun (hhalted.mp hh)) (show 1 ≤ 4 by omega)
  rwa [hcode] at h

/-- Setting the receiver on or off is silent. -/
theorem recv_answers {m : Mcu} (hrun : ¬halted m) (flags : Byte) :
    AnswersWith (m.ctl CCODE) 0 m (ack (rxReset { m with rxFlags := flags })) :=
  ack_answers hrun ((show Silent m { m with rxFlags := flags } from
    ⟨rfl, rfl, rfl, Iff.rfl, rfl⟩).trans (rxReset_silent _))

/-- The data is read while the receiver is off. -/
theorem rxDisable_reads {m : Mcu} {queue : List (List Byte)} (hrun : ¬halted m)
    (hpos : m.ctl CDATA ≠ 0) (hle : (m.ctl CDATA).toNat ≤ 150) (hne : ∀ p ∈ m.out, p ≠ [])
    (hout : Chunks.dropCover (m.ctl CDATA).toNat m.out = some queue) :
    ∃ m', readBuffer (rxDisable m) = some (m', true) ∧ Silent { m with out := queue } m' := by
  have hoff := rxDisable_silent m
  have hdata : (rxDisable m).ctl CDATA = m.ctl CDATA := by
    unfold Mcu.ctl rxDisable
    rw [txPinsOff_ram]
  obtain ⟨m', hread, hsilent⟩ := readBuffer_reads (fun hh => hrun (hoff.halted_iff.mp hh))
    (by rwa [hdata]) (by rwa [hdata]) (by rwa [hoff.out]) (by rwa [hdata, hoff.out])
  have hstart : Silent { m with out := queue } { rxDisable m with out := queue } :=
    ⟨hoff.sent, rfl, hoff.features, hoff.halted_iff, hoff.code⟩
  exact ⟨m', hread, hstart.trans hsilent⟩

theorem send_answers {m : Mcu} {queue : List (List Byte)} (hrun : ¬halted m)
    (hpos : m.ctl CDATA ≠ 0) (hle : (m.ctl CDATA).toNat ≤ 150) (hne : ∀ p ∈ m.out, p ≠ [])
    (hout : Chunks.dropCover (m.ctl CDATA).toNat m.out = some queue) :
    AnswersWith (m.ctl CCODE) 0 m (sendBody m) := by
  obtain ⟨m', hread, hsilent⟩ := rxDisable_reads hrun hpos hle hne hout
  have h := ack_answers (m := { m with out := queue }) hrun (hsilent.trans (sendBuffer_silent m'))
  simp only [sendBody, hread, Option.bind_eq_bind, Option.bind_some, if_true]
  exact h

/-! ### Requests for the pins -/

theorem hasGpios_true {m : Mcu} (h : gpioFeatures m.features) : hasGpios m = some (m, true) := by
  rw [hasGpios, if_pos h]

/-- Without pins the error is sent, and its code stays in the packet. -/
theorem hasGpios_false {m : Mcu} (hrun : ¬halted m) (h : ¬gpioFeatures m.features) :
    ∃ m', hasGpios m = some (m', false) ∧ m'.sent = m.sent ++ [replyHeader IG_DEV_INVALID_ARG] ∧
      ¬halted m' ∧ m'.ctl CCODE = IG_DEV_INVALID_ARG := by
  have hcode : (m.setCtl CCODE IG_DEV_INVALID_ARG).ctl CCODE = IG_DEV_INVALID_ARG :=
    Mcu.write_same m _ _
  have hrun' : ¬halted (m.setCtl CCODE IG_DEV_INVALID_ARG) := by
    unfold halted Mcu.setCtl
    rw [Mcu.write_ne _ _ (by decide)]
    exact hrun
  obtain ⟨m', data, hm', hlen, hsent⟩ := writeControl_sent hrun' (Nat.zero_le 4)
  obtain rfl := List.length_eq_zero_iff.mp hlen
  rw [List.append_nil, hcode] at hsent
  refine ⟨m', ?_, hsent.sent, fun hh => hrun' (hsent.halted_iff.mp hh), ?_⟩
  · rw [hasGpios, if_neg h]
    exact (congrArg (Option.map (·, false)) hm').trans rfl
  · rw [hsent.code, hcode]

/-- The error is all that is sent for a configuration. -/
theorem getPinConfig_refused {m : Mcu} (hrun : ¬halted m) (h : ¬gpioFeatures m.features) :
    AnswersWith IG_DEV_INVALID_ARG 0 m (getPinConfig m) := by
  obtain ⟨m', hm', hsent, -, -⟩ := hasGpios_false hrun h
  rw [getPinConfig, hm']
  exact ⟨m', [], rfl, rfl, hsent⟩

theorem setPinConfig_refused {m : Mcu} (hrun : ¬halted m) (h : ¬gpioFeatures m.features) :
    AnswersWith IG_DEV_INVALID_ARG 0 m (setPinConfig m) := by
  obtain ⟨m', hm', hsent, -, -⟩ := hasGpios_false hrun h
  rw [setPinConfig, hm']
  exact ⟨m', [], rfl, rfl, hsent⟩

/-- The error is sent twice when the handler goes on to its own reply. -/
def AnswersTwice (k : ℕ) (m : Mcu) (result : Option Mcu) : Prop :=
  ∃ m' data, result = some m' ∧ data.length = k ∧ m'.sent = m.sent ++
    [replyHeader IG_DEV_INVALID_ARG, replyHeader IG_DEV_INVALID_ARG ++ data]

theorem invalid_answers_twice {m : Mcu} (hrun : ¬halted m) (h : ¬gpioFeatures m.features) {k : ℕ}
    (hk : k ≤ 4) : ∃ m', hasGpios m = some (m', false) ∧
      AnswersTwice k m (writeControl (CTL_BASE_SIZE + BitVec.ofNat 8 k) m') := by
  obtain ⟨m', hm', hsent, hrun', hcode⟩ := hasGpios_false hrun h
  obtain ⟨m'', data, hm'', hlen, hsent'⟩ := writeControl_answers hrun' hk
  refine ⟨m', hm', m'', data, hm'', hlen, ?_⟩
  rw [hsent', hsent, hcode, List.append_assoc]
  rfl

theorem getPins_answers {m : Mcu} (hrun : ¬halted m) (h : gpioFeatures m.features) :
    AnswersWith (m.ctl CCODE) 2 m (getPinsBody m) := by
  have hsilent := loadPins_silent m
  have hanswer := writeControl_answers (fun hh => hrun (hsilent.halted_iff.mp hh))
    (show 2 ≤ 4 by omega)
  rw [hsilent.code] at hanswer
  simp only [getPinsBody, getPins, hasGpios_true h, Option.bind_eq_bind, Option.bind_some, if_true]
  exact .of_sent hsilent.sent hanswer

theorem getPins_answers_twice {m : Mcu} (hrun : ¬halted m) (h : ¬gpioFeatures m.features) :
    AnswersTwice 2 m (getPinsBody m) := by
  obtain ⟨m', hm', hanswer⟩ := invalid_answers_twice hrun h (show 2 ≤ 4 by omega)
  rw [getPinsBody, getPins, hm']
  exact hanswer

theorem setPins_answers {m : Mcu} (hrun : ¬halted m) (h : gpioFeatures m.features) :
    AnswersWith (m.ctl CCODE) 0 m (setPinsBody m) := by
  simp only [setPinsBody, setPins, hasGpios_true h, Option.bind_eq_bind, Option.bind_some, if_true]
  exact ack_answers hrun (storePins_silent m)

theorem setPins_answers_twice {m : Mcu} (hrun : ¬halted m) (h : ¬gpioFeatures m.features) :
    AnswersTwice 0 m (setPinsBody m) := by
  obtain ⟨m', hm', hanswer⟩ := invalid_answers_twice hrun h (Nat.zero_le 4)
  rw [setPinsBody, setPins, hm']
  exact hanswer

/-! ### Bursts -/

theorem burstByte_silent {m : Mcu} (h : gpioFeatures m.features) :
    ∃ m', burstByte m = some m' ∧ Silent m m' := by
  obtain ⟨m₀, hm₀⟩ : ∃ m₀, m₀ = (((m.write bufferPtr (m.ram bufferPtr + 1)).write tmp1
      (m.ram (m.ram bufferPtr))).setCtl CDATA (m.ram (m.ram bufferPtr) &&& 0x0F)).setCtl (CDATA + 1)
      ((m.ram (m.ram bufferPtr) &&& 0xF0).sshiftRight 4) := ⟨_, rfl⟩
  have hstart : Silent m m₀ := by
    rw [hm₀]
    exact (((Silent.write _ (by decide) (by decide)).trans (.write _ (by decide) (by decide))).trans
      (.write _ (by decide) (by decide))).trans (.write _ (by decide) (by decide))
  have h₀ : gpioFeatures m₀.features := by rwa [hstart.features]
  refine ⟨storePins m₀, ?_, hstart.trans (storePins_silent m₀)⟩
  unfold burstByte
  dsimp only
  rw [← hm₀]
  simp only [setPins, hasGpios_true h₀, Option.bind_eq_bind, Option.bind_some, if_true]

theorem burstLoop_silent : ∀ (n : ℕ) {m : Mcu}, gpioFeatures m.features →
    ∃ m', burstLoop n m = some m' ∧ Silent m m'
  | 0, m, _ => ⟨m, rfl, .refl m⟩
  | n + 1, m, h => by
      obtain ⟨m₁, hm₁, hs₁⟩ := burstByte_silent h
      obtain ⟨m₂, hm₂, hs₂⟩ := burstLoop_silent n (m := m₁) (by rwa [hs₁.features])
      refine ⟨m₂, ?_, hs₁.trans hs₂⟩
      rw [burstLoop, hm₁]
      exact hm₂

theorem pinBurstBody_eq {m m' : Mcu} (h : readBuffer (rxDisable m) = some (m', true)) :
    pinBurstBody m = (pinBurst m').bind ack := by
  simp only [pinBurstBody, h, Option.bind_eq_bind, Option.bind_some]

theorem pinBurst_answers {m : Mcu} {queue : List (List Byte)} (hrun : ¬halted m)
    (h : gpioFeatures m.features) (hpos : m.ctl CDATA ≠ 0) (hle : (m.ctl CDATA).toNat ≤ 150)
    (hne : ∀ p ∈ m.out, p ≠ [])
    (hout : Chunks.dropCover (m.ctl CDATA).toNat m.out = some queue) :
    AnswersWith (m.ctl CCODE) 0 m (pinBurstBody m) := by
  obtain ⟨m', hread, hsilent⟩ := rxDisable_reads hrun hpos hle hne hout
  have h' : gpioFeatures m'.features := by rwa [hsilent.features]
  obtain ⟨m'', hloop, hsilent'⟩ := burstLoop_silent
    (if m'.ctl CDATA = 0 then 256 else (m'.ctl CDATA).toNat) (m := m'.write bufferPtr buffer) h'
  have hburst : pinBurst m' = some m'' := by
    rw [← hloop]
    simp only [pinBurst, hasGpios_true h', Option.bind_eq_bind, Option.bind_some, if_true]
    rfl
  rw [pinBurstBody_eq hread, hburst]
  exact ack_answers (m := { m with out := queue }) hrun
    ((hsilent.trans (.write (a := bufferPtr) buffer (by decide) (by decide))).trans hsilent')

theorem pinBurst_answers_twice {m : Mcu} {queue : List (List Byte)} (hrun : ¬halted m)
    (h : ¬gpioFeatures m.features) (hpos : m.ctl CDATA ≠ 0) (hle : (m.ctl CDATA).toNat ≤ 150)
    (hne : ∀ p ∈ m.out, p ≠ [])
    (hout : Chunks.dropCover (m.ctl CDATA).toNat m.out = some queue) :
    AnswersTwice 0 m (pinBurstBody m) := by
  obtain ⟨m', hread, hsilent⟩ := rxDisable_reads hrun hpos hle hne hout
  obtain ⟨m₁, hm₁, m'', data, hm'', hlen, hsent⟩ := invalid_answers_twice (m := m')
    (fun hh => hrun (hsilent.halted_iff.mp hh)) (by rwa [hsilent.features]) (Nat.zero_le 4)
  rw [pinBurstBody_eq hread, pinBurst, hm₁]
  refine ⟨m'', data, hm'', hlen, ?_⟩
  rw [hsent, hsilent.sent]

/-! ### The pin configuration -/

/-- **The configuration follows the ack** in a packet without a header. -/
theorem getPinConfig_answers {m : Mcu} (hrun : ¬halted m) (h : gpioFeatures m.features) :
    ∃ m' bytes, getPinConfig m = some m' ∧ bytes.length = 8 ∧
      m'.sent = m.sent ++ [replyHeader (m.ctl CCODE), bytes] := by
  obtain ⟨m₁, data, hm₁, hlen, hsent⟩ := writeControl_sent hrun (Nat.zero_le 4)
  obtain rfl := List.length_eq_zero_iff.mp hlen
  have hrun₁ : ¬halted m₁ := fun hh => hrun (hsent.halted_iff.mp hh)
  have hflags : (loadConfigs m₁).ram loaderFlags = m₁.ram loaderFlags ∧
      (loadConfigs m₁).sent = m₁.sent := by
    unfold loadConfigs
    dsimp only
    split_ifs <;> exact ⟨rfl, rfl⟩
  obtain ⟨m₂, hm₂, hsent₂⟩ := writePacket_sent (m := loadConfigs m₁)
    (fun hh => hrun₁ (by unfold halted at hh ⊢; rwa [hflags.1] at hh)) PACKET_SIZE controlPkt
  refine ⟨m₂, (((loadConfigs m₁).write tmp1 PACKET_SIZE).write tmp2 controlPkt).readAll controlPkt
    PACKET_SIZE.toNat, ?_, ?_, ?_⟩
  · simp only [getPinConfig, hasGpios_true h, Option.bind_eq_bind, Option.bind_some, if_true]
    exact (congrArg (Option.bind · _) hm₁).trans hm₂
  · rw [Mcu.readAll, List.length_map, List.length_range]
    rfl
  · rw [hsent₂.sent, hflags.2, hsent.sent, List.append_nil, List.append_assoc]
    rfl

/-- The bytes that were written are there to read. -/
theorem readAll_writeAll (m : Mcu) {a : Byte} {bytes : List Byte}
    (hroom : a.toNat + bytes.length ≤ 256) : (m.writeAll a bytes).readAll a bytes.length = bytes := by
  refine List.ext_getElem ?_ (fun i h₁ h₂ => ?_)
  · rw [Mcu.readAll, List.length_map, List.length_range]
  · rw [← Mcu.writeAll_ram_add bytes m a hroom i h₂]
    simp [Mcu.readAll]

/-- **The new configuration goes back to the host** as it came, and then the ack. -/
theorem setPinConfig_answers {m : Mcu} {payload : List Byte} {queue : List (List Byte)}
    (hrun : ¬halted m) (h : gpioFeatures m.features) (hlen : payload.length = 8)
    (hout : m.out = payload :: queue) :
    ∃ m', setPinConfig m = some m' ∧
      m'.sent = m.sent ++ [payload, replyHeader IG_DEV_SETPINCONFIG] := by
  have hne : payload ≠ [] := List.ne_nil_of_length_pos (by omega)
  have hctl : controlPkt.toNat = 248 := rfl
  obtain ⟨m₀, hm₀⟩ : ∃ m₀, m₀ = (({ m with out := queue } : Mcu).write tmp1 0).write tmp2
      controlPkt := ⟨_, rfl⟩
  obtain ⟨ram, hall⟩ := writeAll_eq payload m₀ controlPkt
  have hread : readPacket m = some (m₀.writeAll controlPkt payload) := by
    rw [hm₀]
    unfold readPacket
    rw [hout]
    exact if_neg hne
  have hhalted (m' : Mcu) (hram : m'.ram loaderFlags = m.ram loaderFlags) : ¬halted m' := by
    unfold halted
    rw [hram]
    exact hrun
  have hflags₁ : (m₀.writeAll controlPkt payload).ram loaderFlags = m.ram loaderFlags := by
    rw [Mcu.writeAll_ram_of_lt _ _ _ _ (by omega) (.inl (by decide)), hm₀,
      Mcu.write_ne _ _ (by decide), Mcu.write_ne _ _ (by decide)]
  have hsent₁ : (m₀.writeAll controlPkt payload).sent = m.sent := by
    rw [hall, hm₀]
    rfl
  -- the packet is sent back as it is
  obtain ⟨m₂, hm₂, hecho⟩ := writePacket_sent (hhalted _ hflags₁) PACKET_SIZE controlPkt
  have hbytes : (((m₀.writeAll controlPkt payload).write tmp1 PACKET_SIZE).write tmp2
      controlPkt).readAll controlPkt PACKET_SIZE.toNat = payload := by
    have hback : (m₀.writeAll controlPkt payload).readAll controlPkt payload.length = payload :=
      readAll_writeAll m₀ (by omega)
    rw [hlen] at hback
    have hsame : ∀ i < 8, controlPkt + BitVec.ofNat 8 i ≠ tmp1 ∧
        controlPkt + BitVec.ofNat 8 i ≠ tmp2 := by decide
    rw [← hback]
    apply List.map_congr_left
    intro i hi
    obtain ⟨h₁, h₂⟩ := hsame i (List.mem_range.mp hi)
    rw [Mcu.write_ne _ _ h₂, Mcu.write_ne _ _ h₁, hback]
  rw [hbytes] at hecho
  have hrun₂ : ¬halted m₂ := fun hh => hhalted _ hflags₁ (hecho.halted_iff.mp hh)
  have hstore : (storeConfigs m₂).ram = m₂.ram ∧ (storeConfigs m₂).sent = m₂.sent := by
    unfold storeConfigs
    dsimp only
    split_ifs <;> exact ⟨rfl, rfl⟩
  have hrun₃ : ¬halted ((storeConfigs m₂).setCtl CCODE IG_DEV_SETPINCONFIG) := by
    unfold halted Mcu.setCtl
    rw [Mcu.write_ne _ _ (by decide), hstore.1]
    exact hrun₂
  have hcode : ((storeConfigs m₂).setCtl CCODE IG_DEV_SETPINCONFIG).ctl CCODE =
      IG_DEV_SETPINCONFIG := Mcu.write_same _ _ _
  obtain ⟨m₄, data, hm₄, hnil, hack⟩ := writeControl_answers hrun₃ (Nat.zero_le 4)
  obtain rfl := List.length_eq_zero_iff.mp hnil
  refine ⟨m₄, ?_, ?_⟩
  · simp only [setPinConfig, hasGpios_true h, hread, hm₂, Option.bind_eq_bind, Option.bind_some,
      if_true]
    exact hm₄
  · rw [hack, hcode, List.append_nil]
    change (storeConfigs m₂).sent ++ _ = _
    rw [hstore.2, hecho.sent, hsent₁, List.append_assoc]
    rfl

end IguanaIR.Firmware
