import IguanaIR.Incoming
import IguanaIR.TransferFraming
import IguanaIR.Firmware.Replies

/-! # One reply for each request

What the reader thread makes of the packets that the firmware writes while it handles one
request of the daemon, for a device of version 0x0309.  `Replied` lists what the firmware sends,
and `OneReply` is what the host expects: one response, and nothing that looks like a received
signal.

Two handlers break it.  With free pins the new pin configuration is sent back before its ack.
Without them the functions for the pins send the error of `has_gpios` and fall through to a
second reply. -/

namespace IguanaIR

open Firmware

variable {fl : ℚ → ℚ} {others : Byte → Mcu → Option Mcu}

/-- Loader version 3 with body version 9. -/
def BODY_9 : Version := 0x0309

/-- The requests, with the amount of data that they have. -/
def Asked (request : DataPacket) : Prop :=
  (request.code ∈ [IG_DEV_GETVERSION, IG_DEV_GETFEATURES, IG_DEV_GETBUFSIZE, IG_DEV_RECVON,
    IG_DEV_RECVOFF, IG_DEV_GETPINS, IG_DEV_GETPINCONFIG] ∧ request.dataLen = 0) ∨
  (request.code = IG_DEV_SETPINS ∧ request.dataLen = 2) ∨
  (request.code = IG_DEV_SETPINCONFIG ∧ request.dataLen = 8) ∨
  ((request.code = IG_DEV_SEND ∨ request.code = IG_DEV_PINBURST) ∧ 1 ≤ request.dataLen ∧
    request.dataLen ≤ 150)

/-- The payload length that the table gives for a reply. -/
def replyLength (type : PacketType) : ℕ := if type.inData = NO_PAYLOAD then 0 else type.inData

/-- The reader makes one response of these packets, and no signal. -/
def OneReply (settings : ReaderSettings) (prev : ℤ) (code : Byte) (packets : List (List Byte)) :
    Prop :=
  ∃ phase p, handleIncomingPackets settings (.waiting prev) (packets.map .data) =
      some (phase, [.response p]) ∧
    (p.code = IG_DEV_INVALID_ARG ∨ p.code = code ∧
      ∃ type, findTypeEntry code settings.version = some type ∧ p.dataLen = replyLength type)

/-- With free pins everything but the new configuration, without them everything but what goes on
behind the error. -/
def RepliesOnce (features code : Byte) : Prop :=
  if gpioFeatures features then code ≠ IG_DEV_SETPINCONFIG
  else code ∉ [IG_DEV_GETPINS, IG_DEV_SETPINS, IG_DEV_PINBURST]

instance (features code : Byte) : Decidable (RepliesOnce features code) := by
  unfold RepliesOnce
  infer_instance

/-! ### What the daemon writes -/

theorem deviceCode_current {code : Byte} (h : code ≠ IG_DEV_GETID) (h' : code ≠ IG_DEV_SETID) :
    deviceCode code BODY_9 = code := by
  have hnew : ¬BODY_9 ≤ 4 := by decide
  simp only [deviceCode, if_neg h, if_neg h', translateDevice, if_neg hnew,
    translateProtocol_current, Option.getD_some]

/-- The control packet of a request that has no stream of its own. -/
theorem prepare_plain {checks : Device → Option (Device × Bool)} {d d₁ : Device}
    {request : DataPacket} {p : Prepared} (hver : d.idev.version = BODY_9)
    (hid : request.code ≠ IG_DEV_GETID) (hset : request.code ≠ IG_DEV_SETID)
    (hblock : request.code ≠ IG_DEV_WRITEBLOCK) (hplain : ¬hasDataStream request.code)
    (h : prepare fl checks d request = some (d₁, p)) :
    p.request = request ∧
      p.sent = (if request.code = IG_DEV_SETPINCONFIG then 0 else min request.dataLen 4) ∧
      ∃ arguments, readBytes request.data p.sent = some arguments ∧
        p.msg = controlPacket request.code arguments := by
  have hcode : deviceCode request.code d.idev.version = request.code := by
    rw [hver, deviceCode_current hid hset]
  simp only [prepare, replaceLabel, if_neg hset, forgetFeatures, if_neg hblock, hcode,
    checksumBlock, Option.bind_eq_bind, Option.bind_some] at h
  rw [if_neg (fun hc => hblock hc.1)] at h
  simp only [Option.bind_some, packRequest, if_neg hplain] at h
  split_ifs at h ⊢ with hconfig
  · obtain ⟨-, rfl⟩ := Prod.mk.inj (Option.some.inj h)
    exact ⟨rfl, rfl, [], readBytes_zero _, rfl⟩
  · obtain ⟨arguments, hread, h⟩ := Option.map_eq_some_iff.mp h
    obtain ⟨-, rfl⟩ := Prod.mk.inj h
    exact ⟨rfl, rfl, arguments, hread, rfl⟩

/-- The data that goes with such a request: what did not fit into the control packet. -/
theorem transmitted_plain {d : Device} {request : DataPacket} {msg : List Byte}
    {packets : List (List Byte)} (hver : d.idev.version = BODY_9)
    (hid : request.code ≠ IG_DEV_GETID) (hset : request.code ≠ IG_DEV_SETID)
    (hblock : request.code ≠ IG_DEV_WRITEBLOCK) (hplain : ¬hasDataStream request.code)
    (h : Transmitted fl d request msg packets) :
    ∃ sent arguments,
      sent = (if request.code = IG_DEV_SETPINCONFIG then 0 else min request.dataLen 4) ∧
      readBytes request.data sent = some arguments ∧ msg = controlPacket request.code arguments ∧
      (request.dataLen ≤ sent → packets = []) ∧
      (sent < request.dataLen → ∃ bytes, readBytes request.data request.dataLen = some bytes ∧
        packets = Chunks.pieces d.idev.maxPacketSize (bytes.drop sent.toNat)) := by
  obtain ⟨haccept, d₁, p, d', a, hprep, hok, hfail, htrans, rfl, hwire⟩ := h
  obtain ⟨type, htype⟩ := Option.isSome_iff_exists.mp haccept
  obtain ⟨hrequest, hsent, arguments, hread, hmsg⟩ := prepare_plain hver hid hset hblock hplain hprep
  obtain ⟨features, cycles, hkeeps⟩ := (prepare_spec (fun _ _ _ hc => checkFeatures_keeps hc) hprep).1
  have hver₁ : d₁.idev.version = BODY_9 := by rw [hkeeps, hver]
  have hpacket : d₁.idev.maxPacketSize = d.idev.maxPacketSize := by rw [hkeeps]
  have hnew : ¬BODY_9 < 3 := by decide
  have hsplit : ¬splitsRequest d.idev.version request.code := by
    intro hs
    rw [hver] at hs
    exact absurd hs.1 (by decide)
  simp only [deviceTransaction, if_neg hsplit, wholeTransaction, transaction, htype, hprep,
    Option.bind_eq_bind, Option.bind_some, transmit, hok, hfail, if_true] at htrans
  obtain ⟨⟨done, packets'⟩, hstream, htrans⟩ := Option.map_eq_some_iff.mp htrans
  obtain ⟨rfl, -⟩ := Prod.mk.inj htrans
  obtain rfl : packets' = packets := (List.cons.inj (List.append_cancel_left hwire)).2
  refine ⟨p.sent, arguments, hsent, hread, hmsg, fun hle => ?_, fun hlt => ?_⟩
  · rw [dataStream, hrequest, if_neg (by omega)] at hstream
    exact (Prod.mk.inj (Option.some.inj hstream)).2.symm
  · rw [dataStream, hrequest, if_pos hlt] at hstream
    simp only [Option.bind_eq_bind, Option.bind_eq_some_iff, hver₁, hpacket, hnew, decide_false,
      Bool.false_and, sendData, sendPackets_eq_pieces] at hstream
    obtain ⟨bytes, hbytes, hstream⟩ := hstream
    exact ⟨bytes, hbytes, (Prod.mk.inj (Option.some.inj hstream)).2.symm⟩

/-- A request without data is its control packet. -/
theorem transmitted_bare {d : Device} {request : DataPacket} {msg : List Byte}
    {packets : List (List Byte)} (hver : d.idev.version = BODY_9)
    (hcode : request.code ∈ [IG_DEV_GETVERSION, IG_DEV_GETFEATURES, IG_DEV_GETBUFSIZE,
      IG_DEV_RECVON, IG_DEV_RECVOFF, IG_DEV_GETPINS, IG_DEV_GETPINCONFIG])
    (hlen : request.dataLen = 0) (h : Transmitted fl d request msg packets) :
    msg = controlPacket request.code [] ∧ packets = [] := by
  have hother : ∀ c ∈ [IG_DEV_GETVERSION, IG_DEV_GETFEATURES, IG_DEV_GETBUFSIZE, IG_DEV_RECVON,
      IG_DEV_RECVOFF, IG_DEV_GETPINS, IG_DEV_GETPINCONFIG], c ≠ IG_DEV_GETID ∧ c ≠ IG_DEV_SETID ∧
      c ≠ IG_DEV_WRITEBLOCK ∧ ¬hasDataStream c := by decide
  obtain ⟨hid, hset, hblock, hplain⟩ := hother _ hcode
  obtain ⟨sent, arguments, hsent, hread, hmsg, hnil, -⟩ :=
    transmitted_plain hver hid hset hblock hplain h
  have hzero : sent = 0 := by
    rw [hsent, hlen]
    split_ifs <;> rfl
  rw [hzero, readBytes_zero] at hread
  rw [← Option.some.inj hread] at hmsg
  exact ⟨hmsg, hnil (by omega)⟩

/-- The two data bytes of the pins travel in the control packet. -/
theorem transmitted_setpins {d : Device} {request : DataPacket} {msg : List Byte}
    {packets : List (List Byte)} (hver : d.idev.version = BODY_9)
    (hcode : request.code = IG_DEV_SETPINS) (hlen : request.dataLen = 2)
    (h : Transmitted fl d request msg packets) :
    ∃ arguments, arguments.length ≤ 4 ∧ msg = controlPacket request.code arguments ∧
      packets = [] := by
  obtain ⟨sent, arguments, hsent, hread, hmsg, hnil, -⟩ := transmitted_plain hver
    (by rw [hcode]; decide) (by rw [hcode]; decide) (by rw [hcode]; decide)
    (by rw [hcode]; decide) h
  have hother : IG_DEV_SETPINS ≠ IG_DEV_SETPINCONFIG := by decide
  rw [hcode, if_neg hother, hlen] at hsent
  have hlength := readBytes_length hread
  exact ⟨arguments, by omega, hmsg, hnil (by omega)⟩

/-- The pin configuration travels in a packet of its own. -/
theorem transmitted_setpinconfig {d : Device} {request : DataPacket} {msg : List Byte}
    {packets : List (List Byte)} (hver : d.idev.version = BODY_9) (hpacket : d.idev.maxPacketSize = 8)
    (hcode : request.code = IG_DEV_SETPINCONFIG) (hlen : request.dataLen = 8)
    (h : Transmitted fl d request msg packets) :
    msg = controlPacket request.code [] ∧ ∃ payload, payload.length = 8 ∧ packets = [payload] := by
  obtain ⟨sent, arguments, hsent, hread, hmsg, -, hdata⟩ := transmitted_plain hver
    (by rw [hcode]; decide) (by rw [hcode]; decide) (by rw [hcode]; decide)
    (by rw [hcode]; decide) h
  rw [if_pos hcode] at hsent
  obtain ⟨bytes, hbytes, hpieces⟩ := hdata (by omega)
  have hlength := readBytes_length hbytes
  rw [hsent, readBytes_zero] at hread
  rw [← Option.some.inj hread] at hmsg
  refine ⟨hmsg, bytes, by omega, ?_⟩
  rw [hpieces, hsent, hpacket, Int.toNat_zero, List.drop_zero,
    Chunks.pieces_cons (by omega) (by omega), List.take_of_length_le (by omega),
    List.drop_of_length_le (by omega)]
  rfl

/-- The data that a stream's control packet announces is what is queued behind it. -/
theorem transmitted_stream {d : Device} {request : DataPacket} {msg : List Byte}
    {packets : List (List Byte)} (hver : d.idev.version = BODY_9)
    (hcode : request.code = IG_DEV_SEND ∨ request.code = IG_DEV_PINBURST)
    (hlen : 1 ≤ request.dataLen ∧ request.dataLen ≤ 150) (h : Transmitted fl d request msg packets) :
    ∃ n : Byte, ∃ tail, (n :: tail).length ≤ 4 ∧ msg = controlPacket request.code (n :: tail) ∧
      n ≠ 0 ∧ n.toNat ≤ 150 ∧ (∀ p ∈ packets, p ≠ []) ∧
      ∀ queue, Chunks.dropCover n.toNat (packets ++ queue) = some queue := by
  have hother : request.code ≠ IG_DEV_GETID ∧ request.code ≠ IG_DEV_SETID := by
    rcases hcode with hc | hc <;> rw [hc] <;> decide
  obtain ⟨⟨tail, htail, hmsg⟩, hpackets⟩ := transmitted_spec hcode (by rw [hver]; decide) h
  rw [hver, deviceCode_current hother.1 hother.2] at hmsg
  obtain ⟨hle, -⟩ | ⟨bytes, hbytes, hne, rfl⟩ := hpackets
  · omega
  have hm := d.idev.packetSize_pos
  have hn : (BitVec.ofInt 8 request.dataLen).toNat = bytes.length := by
    have hbyte : (BitVec.ofInt 8 request.dataLen).toNat = (request.dataLen % 256).toNat :=
      BitVec.toNat_ofInt ..
    rw [hbyte]
    omega
  refine ⟨_, tail, Nat.succ_le_succ htail, hmsg, fun h0 => ?_, by omega,
    fun p hp => Chunks.ne_nil_of_mem_pieces hm hp, fun queue => ?_⟩
  · rw [h0] at hn
    have hz : (0 : Byte).toNat = 0 := rfl
    omega
  · obtain ⟨init, last, hsplit, hall, hlast⟩ := Chunks.pieces_split hm hne
    have hsum : init.flatten.length + last.length = bytes.length := by
      rw [← List.length_append, hall]
    have hdiv := Nat.div_mul_le_self (bytes.length - 1) d.idev.maxPacketSize
    rw [hn, hsplit, List.append_assoc, List.singleton_append]
    exact Chunks.dropCover_append queue (by omega) (by omega)

/-! ### What the firmware sends -/

/-- The packets that the firmware sends for a request, with free pins or without. -/
inductive Replied (features code : Byte) : List (List Byte) → Prop where
  | answer {type : PacketType} {data : List Byte} :
      RepliesOnce features code → findTypeEntry code BODY_9 = some type →
      type.direction = CTL_TODEV → data.length = replyLength type →
      Replied features code [replyHeader code ++ data]
  | config {bytes : List Byte} : gpioFeatures features → code = IG_DEV_GETPINCONFIG →
      bytes.length = 8 → Replied features code [replyHeader code, bytes]
  | echo {payload : List Byte} : gpioFeatures features → code = IG_DEV_SETPINCONFIG →
      payload.length = 8 → Replied features code [payload, replyHeader code]
  | refused : ¬gpioFeatures features →
      code ∉ [IG_DEV_GETPINS, IG_DEV_SETPINS, IG_DEV_PINBURST] →
      Replied features code [replyHeader IG_DEV_INVALID_ARG]
  | refusedTwice {data : List Byte} : ¬gpioFeatures features →
      code ∈ [IG_DEV_GETPINS, IG_DEV_SETPINS, IG_DEV_PINBURST] →
      Replied features code
        [replyHeader IG_DEV_INVALID_ARG, replyHeader IG_DEV_INVALID_ARG ++ data]

/-- The result of handling the request sends what is listed. -/
def Handled (m : Mcu) (code : Byte) (result : Option Mcu) : Prop :=
  ∃ m' sent, result = some m' ∧ m'.sent = m.sent ++ sent ∧ Replied m.features code sent

/-- One answer with the data that the table asks for. -/
theorem Handled.of_answers {m m₁ : Mcu} {code : Byte} {k : ℕ} {result : Option Mcu}
    (hsent₁ : m₁.sent = m.sent) (h : AnswersWith code k m₁ result)
    (hpins : RepliesOnce m.features code)
    (hrow : (findTypeEntry code BODY_9).map (fun type => (type.direction, replyLength type)) =
      some (CTL_TODEV, k)) :
    Handled m code result := by
  obtain ⟨type, htype, hk⟩ := Option.map_eq_some_iff.mp hrow
  obtain ⟨hdir, hk⟩ := Prod.mk.inj hk
  obtain ⟨m', data, hresult, hlen, hsent⟩ := h
  exact ⟨m', _, hresult, by rw [hsent, hsent₁], .answer hpins htype hdir (hlen.trans hk.symm)⟩

theorem Handled.of_answersTwice {m m₁ : Mcu} {code : Byte} {k : ℕ} {result : Option Mcu}
    (hsent₁ : m₁.sent = m.sent) (h : AnswersTwice k m₁ result) (hpins : ¬gpioFeatures m.features)
    (hcode : code ∈ [IG_DEV_GETPINS, IG_DEV_SETPINS, IG_DEV_PINBURST]) :
    Handled m code result := by
  obtain ⟨m', data, hresult, -, hsent⟩ := h
  exact ⟨m', _, hresult, by rw [hsent, hsent₁], .refusedTwice hpins hcode⟩

/-- The error alone. -/
theorem Handled.of_refused {m m₁ : Mcu} {code : Byte} {result : Option Mcu}
    (hsent₁ : m₁.sent = m.sent) (h : AnswersWith IG_DEV_INVALID_ARG 0 m₁ result)
    (hpins : ¬gpioFeatures m.features)
    (hcode : code ∉ [IG_DEV_GETPINS, IG_DEV_SETPINS, IG_DEV_PINBURST]) :
    Handled m code result := by
  obtain ⟨m', data, hresult, hlen, hsent⟩ := h
  obtain rfl := List.length_eq_zero_iff.mp hlen
  exact ⟨m', _, hresult, by rw [hsent, hsent₁, List.append_nil], .refused hpins hcode⟩

theorem repliesOnce_of {features code : Byte}
    (h : code ∉ [IG_DEV_GETPINS, IG_DEV_SETPINS, IG_DEV_PINBURST] ∨ gpioFeatures features)
    (h' : code ≠ IG_DEV_SETPINCONFIG) : RepliesOnce features code := by
  unfold RepliesOnce
  split_ifs with hf
  · exact h'
  · exact h.resolve_right hf

/-- The requests without data. -/
theorem mainRecv_bare {code : Byte} {queue : List (List Byte)} {m : Mcu}
    (hcode : code ∈ [IG_DEV_GETVERSION, IG_DEV_GETFEATURES, IG_DEV_GETBUFSIZE, IG_DEV_RECVON,
      IG_DEV_RECVOFF, IG_DEV_GETPINS, IG_DEV_GETPINCONFIG])
    (hrun : ¬halted m) (hout : m.out = controlPacket code [] :: queue) :
    Handled m code (mainRecv others m) := by
  have hbody : ∀ c ∈ [IG_DEV_GETFEATURES, IG_DEV_GETBUFSIZE, IG_DEV_RECVON, IG_DEV_RECVOFF,
      IG_DEV_GETPINS, IG_DEV_GETPINCONFIG],
      c ∉ [0, IG_DEV_GETVERSION, IG_DEV_WRITEBLOCK, IG_DEV_CHECKSUM, IG_DEV_RESET] := by decide
  have hnone : ([] : List Byte).length ≤ 4 := Nat.zero_le 4
  rcases List.mem_cons.mp hcode with rfl | hcode
  · -- the loader answers this one
    obtain ⟨m₁, hread, he⟩ := readControl_enters hnone hrun hout
    have hmain : mainRecv others m = mainGetversion m₁ := by
      simp only [mainRecv, hread, Option.bind_eq_bind, Option.bind_some]
      rfl
    rw [hmain]
    exact .of_answers he.sent (getversion_answers he.running)
      (repliesOnce_of (.inl (by decide)) (by decide)) (by decide)
  obtain ⟨m₁, hmain, he⟩ := mainRecv_body others hnone hrun hout
    (hbody code hcode)
  have hpins : gpioFeatures m₁.features ↔ gpioFeatures m.features := by rw [he.features]
  rw [hmain]
  simp only [List.mem_cons, List.not_mem_nil, or_false] at hcode
  rcases hcode with rfl | rfl | rfl | rfl | rfl | rfl
  · exact .of_answers he.sent (getFeatures_answers he.running)
      (repliesOnce_of (.inl (by decide)) (by decide)) (by decide)
  · exact .of_answers he.sent (getBufSize_answers he.running)
      (repliesOnce_of (.inl (by decide)) (by decide)) (by decide)
  · have h := recv_answers he.running (m₁.rxFlags ||| RX_ON_FLAG)
    rw [he.code] at h
    exact .of_answers he.sent h (repliesOnce_of (.inl (by decide)) (by decide)) (by decide)
  · have h := recv_answers he.running (m₁.rxFlags &&& ~~~RX_ON_FLAG)
    rw [he.code] at h
    exact .of_answers he.sent h (repliesOnce_of (.inl (by decide)) (by decide)) (by decide)
  · by_cases hf : gpioFeatures m.features
    · have h := getPins_answers he.running (hpins.mpr hf)
      rw [he.code] at h
      exact .of_answers he.sent h (repliesOnce_of (.inr hf) (by decide)) (by decide)
    · exact .of_answersTwice he.sent (getPins_answers_twice he.running (mt hpins.mp hf)) hf
        (by decide)
  · by_cases hf : gpioFeatures m.features
    · obtain ⟨m', bytes, hm', hlen, hsent⟩ := getPinConfig_answers he.running (hpins.mpr hf)
      rw [he.code, he.sent] at hsent
      exact ⟨m', _, hm', hsent, .config hf rfl hlen⟩
    · exact .of_refused he.sent (getPinConfig_refused he.running (mt hpins.mp hf)) hf (by decide)

theorem mainRecv_setpins {arguments : List Byte} {queue : List (List Byte)} {m : Mcu}
    (hlen : arguments.length ≤ 4) (hrun : ¬halted m)
    (hout : m.out = controlPacket IG_DEV_SETPINS arguments :: queue) :
    Handled m IG_DEV_SETPINS (mainRecv others m) := by
  obtain ⟨m₁, hmain, he⟩ := mainRecv_body others hlen hrun hout (by decide)
  have hpins : gpioFeatures m₁.features ↔ gpioFeatures m.features := by rw [he.features]
  rw [hmain]
  by_cases hf : gpioFeatures m.features
  · have h := setPins_answers he.running (hpins.mpr hf)
    rw [he.code] at h
    exact .of_answers he.sent h (repliesOnce_of (.inr hf) (by decide)) (by decide)
  · exact .of_answersTwice he.sent (setPins_answers_twice he.running (mt hpins.mp hf)) hf (by decide)

theorem mainRecv_setpinconfig {payload : List Byte} {queue : List (List Byte)} {m : Mcu}
    (hlen : payload.length = 8) (hrun : ¬halted m)
    (hout : m.out = controlPacket IG_DEV_SETPINCONFIG [] :: payload :: queue) :
    Handled m IG_DEV_SETPINCONFIG (mainRecv others m) := by
  have hnone : ([] : List Byte).length ≤ 4 := Nat.zero_le 4
  obtain ⟨m₁, hmain, he⟩ := mainRecv_body others hnone hrun hout (by decide)
  have hpins : gpioFeatures m₁.features ↔ gpioFeatures m.features := by rw [he.features]
  rw [hmain]
  by_cases hf : gpioFeatures m.features
  · obtain ⟨m', hm', hsent⟩ := setPinConfig_answers he.running (hpins.mpr hf) hlen he.out
    rw [he.sent] at hsent
    exact ⟨m', _, hm', hsent, .echo hf rfl hlen⟩
  · exact .of_refused he.sent (setPinConfig_refused he.running (mt hpins.mp hf)) hf (by decide)

theorem mainRecv_stream {code n : Byte} {tail : List Byte} {packets queue : List (List Byte)}
    {m : Mcu} (hcode : code = IG_DEV_SEND ∨ code = IG_DEV_PINBURST)
    (hlen : (n :: tail).length ≤ 4) (hn : n ≠ 0) (hle : n.toNat ≤ 150) (hrun : ¬halted m)
    (hne : ∀ p ∈ packets ++ queue, p ≠ [])
    (hdata : Chunks.dropCover n.toNat (packets ++ queue) = some queue)
    (hout : m.out = controlPacket code (n :: tail) :: (packets ++ queue)) :
    Handled m code (mainRecv others m) := by
  obtain ⟨m₁, hmain, he⟩ := mainRecv_body others hlen hrun hout
    (by rcases hcode with hc | hc <;> rw [hc] <;> decide)
  have hpins : gpioFeatures m₁.features ↔ gpioFeatures m.features := by rw [he.features]
  have hctl : m₁.ctl CDATA = n := he.argument 0 (by omega)
  rw [← he.out] at hne hdata
  rw [← hctl] at hn hle hdata
  rw [hmain]
  rcases hcode with rfl | rfl
  · have h := send_answers he.running hn hle hne hdata
    rw [he.code] at h
    exact .of_answers he.sent h (repliesOnce_of (.inl (by decide)) (by decide)) (by decide)
  · by_cases hf : gpioFeatures m.features
    · have h := pinBurst_answers he.running (hpins.mpr hf) hn hle hne hdata
      rw [he.code] at h
      exact .of_answers he.sent h (repliesOnce_of (.inr hf) (by decide)) (by decide)
    · exact .of_answersTwice he.sent
        (pinBurst_answers_twice he.running (mt hpins.mp hf) hn hle hne hdata) hf (by decide)

/-- **What the firmware sends** for a request of the daemon. -/
theorem mainRecv_replied {d : Device} {request : DataPacket} {msg : List Byte}
    {packets queue : List (List Byte)} {m : Mcu} (hver : d.idev.version = BODY_9)
    (hpacket : d.idev.maxPacketSize = 8) (hasked : Asked request)
    (h : Transmitted fl d request msg packets) (hrun : ¬halted m) (hqueue : ∀ p ∈ queue, p ≠ [])
    (hout : m.out = msg :: (packets ++ queue)) :
    Handled m request.code (mainRecv others m) := by
  obtain ⟨hcode, hlen⟩ | ⟨hcode, hlen⟩ | ⟨hcode, hlen⟩ | ⟨hcode, hlen⟩ := hasked
  · obtain ⟨rfl, rfl⟩ := transmitted_bare hver hcode hlen h
    exact mainRecv_bare hcode hrun hout
  · obtain ⟨arguments, harg, rfl, rfl⟩ := transmitted_setpins hver hcode hlen h
    rw [hcode] at hout ⊢
    exact mainRecv_setpins harg hrun hout
  · obtain ⟨rfl, payload, hpayload, rfl⟩ := transmitted_setpinconfig hver hpacket hcode hlen h
    rw [hcode] at hout ⊢
    exact mainRecv_setpinconfig hpayload hrun hout
  · obtain ⟨n, tail, htail, rfl, hn, hle, hne, hdata⟩ := transmitted_stream hver hcode hlen h
    refine mainRecv_stream hcode htail hn hle hrun (fun p hp => ?_) (hdata queue) hout
    exact (List.mem_append.mp hp).elim (hne p) (hqueue p)

/-! ### What the reader makes of it -/

theorem handleIncomingPackets_cons (settings : ReaderSettings) (phase : Phase) (a : Received)
    (rest : List Received) :
    handleIncomingPackets settings phase (a :: rest) =
      (handleIncoming settings phase a).bind (fun r₁ =>
        (handleIncomingPackets settings r₁.1 rest).map (fun r₂ => (r₂.1, r₁.2 ++ r₂.2))) := by
  unfold handleIncomingPackets
  rw [Transition.run]
  cases handleIncoming settings phase a with
  | none => rfl
  | some r₁ =>
      simp only [Option.bind_eq_bind, Option.bind_some]
      cases Transition.run (handleIncoming settings) r₁.1 rest <;> rfl

/-- A packet that is completed keeps its code. -/
theorem handleIncoming_collecting {settings : ReaderSettings} {type : PacketType}
    {current : DataPacket} {received : Received} {phase : Phase} {routed : List Routed}
    (h : handleIncoming settings (.collecting type current) received = some (phase, routed)) :
    routed = [] ∨ ∃ q : DataPacket, q.code = current.code ∧
      routed = [queueDataPacket (some type) q] := by
  cases received with
  | data buffer =>
      simp only [handleIncoming, innerPacket] at h
      split_ifs at h
      all_goals obtain ⟨-, rfl⟩ := Prod.mk.inj (Option.some.inj h)
      · exact .inr ⟨current, rfl, rfl⟩
      · exact .inr ⟨current, rfl, rfl⟩
      · exact .inl rfl
      · refine .inr ⟨_, ?_, rfl⟩
        rfl
  | timeout => exact .inr ⟨current, rfl, (Prod.mk.inj (Option.some.inj h)).2.symm⟩
  | pipeError => exact .inr ⟨current, rfl, (Prod.mk.inj (Option.some.inj h)).2.symm⟩
  | failed => exact .inr ⟨current, rfl, (Prod.mk.inj (Option.some.inj h)).2.symm⟩

theorem queueDataPacket_code {type : PacketType} {p q : DataPacket}
    (h : queueDataPacket (some type) q = .response p) : p = q := by
  simp only [queueDataPacket] at h
  split_ifs at h
  exact (Routed.response.inj h).symm

section Reader

variable {settings : ReaderSettings} (hver : settings.version = BODY_9)

include hver

/-- A reply in the outer loop is a packet with its code and data. -/
theorem handleIncoming_reply (code : Byte) (data : List Byte) (prev : ℤ) :
    handleIncoming settings (.waiting prev) (.data (replyHeader code ++ data)) =
      some (match findTypeEntry code BODY_9 with
        | none => (.waiting (4 + data.length), [queueDataPacket none ⟨code, data.length, some data⟩])
        | some type =>
            if type.inData ≠ NO_PAYLOAD ∧ (data.length : ℤ) < type.inData then
              (.collecting type ⟨code, data.length, some data⟩, [])
            else (.waiting (4 + data.length),
              [queueDataPacket (some type) ⟨code, data.length, some data⟩])) := by
  have hlength : (replyHeader code ++ data).length = 4 + data.length := by
    rw [List.length_append]
    rfl
  have hstart : startPacket BODY_9 (replyHeader code ++ data) =
      ⟨code, data.length, some data⟩ := by
    have hcontrol : isControl (replyHeader code ++ data) = true := by
      unfold isControl
      rw [hlength]
      simp [replyHeader, MIN_CTL_LENGTH, CTL_START, CTL_FROMDEV, TO_PC]
    have hnew : ¬BODY_9 ≤ 4 := by decide
    have hcode : (replyHeader code ++ data).getD CODE_OFFSET 0 = code := rfl
    unfold startPacket
    rw [if_pos hcontrol, hlength, hcode]
    simp only [translateDevice, if_neg hnew, translateProtocol_current, Option.getD_some,
      MIN_CTL_LENGTH]
    congr 1
    omega
  have hlen : ((replyHeader code ++ data).length : ℤ) = 4 + data.length := by
    rw [hlength]
    push_cast
    rfl
  unfold handleIncoming
  simp only [outerPacket, hver, hstart, hlen]
  rfl

theorem handleIncoming_response {code : Byte} {type : PacketType} (data : List Byte) (prev : ℤ)
    (htype : findTypeEntry code BODY_9 = some type) (hdir : type.direction = CTL_TODEV)
    (hlen : type.inData = NO_PAYLOAD ∨ type.inData ≤ data.length) :
    handleIncoming settings (.waiting prev) (.data (replyHeader code ++ data)) =
      some (.waiting (4 + data.length), [.response ⟨code, data.length, some data⟩]) := by
  rw [handleIncoming_reply hver, htype]
  dsimp only
  rw [if_neg (by omega), queueDataPacket, if_neg (not_not.mpr hdir)]

/-- The start of one packet and the whole of the next, in one response. -/
theorem handleIncoming_config {bytes : List Byte} (prev : ℤ) (hsize : 8 ≤ settings.maxPacketSize)
    (hlen : bytes.length = 8) :
    ∃ type, findTypeEntry IG_DEV_GETPINCONFIG BODY_9 = some type ∧ type.inData = 8 ∧
      handleIncoming settings (.waiting prev) (.data (replyHeader IG_DEV_GETPINCONFIG)) =
        some (.collecting type ⟨IG_DEV_GETPINCONFIG, 0, some []⟩, []) ∧
      handleIncoming settings (.collecting type ⟨IG_DEV_GETPINCONFIG, 0, some []⟩) (.data bytes) =
        some (.waiting 8, [.response ⟨IG_DEV_GETPINCONFIG, 8, some bytes⟩]) := by
  have hne : bytes.isEmpty = false := by
    cases bytes with
    | nil => cases hlen
    | cons b rest => rfl
  refine ⟨⟨IG_DEV_GETPINCONFIG, CTL_TODEV, NO_PAYLOAD, true, 8⟩, by decide, rfl, ?_, ?_⟩
  · have h := handleIncoming_reply hver IG_DEV_GETPINCONFIG [] prev
    rw [List.append_nil] at h
    rw [h]
    rfl
  · simp only [handleIncoming, hne, innerPacket, hlen, if_neg (show ¬settings.maxPacketSize < 8 by
      omega)]
    rfl

/-- **A new configuration that comes back** is never what the host expects: either it is routed
like any packet, in front of its ack, or it is the start of a packet of another type. -/
theorem echo_not_oneReply {payload : List Byte} (prev : ℤ) (hlen : payload.length = 8) :
    ¬OneReply settings prev IG_DEV_SETPINCONFIG [payload, replyHeader IG_DEV_SETPINCONFIG] := by
  rintro ⟨phase, p, hrun, hcode⟩
  have hne : payload.isEmpty = false := by
    cases payload with
    | nil => cases hlen
    | cons b rest => rfl
  have hack (n : ℤ) := handleIncoming_response hver [] n
    (show findTypeEntry IG_DEV_SETPINCONFIG BODY_9 =
      some ⟨IG_DEV_SETPINCONFIG, CTL_TODEV, 8, true, NO_PAYLOAD⟩ by decide) rfl (.inl rfl)
  rw [List.append_nil] at hack
  -- a packet that is routed at once is one too many
  have htwo (n : ℤ) (routed : Routed) : (handleIncomingPackets settings (.waiting n)
      [.data (replyHeader IG_DEV_SETPINCONFIG)]).map (fun r => (r.1, [routed] ++ r.2)) ≠
        some (phase, [.response p]) := by
    rw [handleIncomingPackets_cons, hack]
    exact fun h => absurd (congrArg List.length (Prod.mk.inj (Option.some.inj h)).2)
      (show (2 : ℕ) ≠ 1 by omega)
  rw [List.map_cons, List.map_cons, List.map_nil, handleIncomingPackets_cons] at hrun
  obtain ⟨⟨phase₁, routed₁⟩, h₁, hrun⟩ := Option.bind_eq_some_iff.mp hrun
  simp only [handleIncoming, hne, outerPacket, hver] at h₁
  generalize startPacket BODY_9 payload = current at h₁
  cases htype : findTypeEntry current.code BODY_9 with
  | none =>
      simp only [htype] at h₁
      obtain ⟨rfl, rfl⟩ := Prod.mk.inj (Option.some.inj h₁)
      exact htwo _ _ hrun
  | some type =>
      simp only [htype, Bool.false_eq_true, if_false] at h₁
      split_ifs at h₁ with hmore
      · -- the ack belongs to a packet whose type has data
        obtain ⟨rfl, rfl⟩ := Prod.mk.inj (Option.some.inj h₁)
        have hcodes : ∀ c ∈ [IG_DEV_INVALID_ARG, IG_DEV_SETPINCONFIG],
            (findTypeEntry c BODY_9).map (·.inData) = some NO_PAYLOAD := by decide
        have hother : current.code ∉ [IG_DEV_INVALID_ARG, IG_DEV_SETPINCONFIG] := by
          intro hmem
          have hdata := hcodes _ hmem
          rw [htype] at hdata
          exact hmore.1 (Option.some.inj hdata)
        suffices h : p.code = current.code by
          rw [← h] at hother
          simp only [List.mem_cons, List.not_mem_nil, or_false, not_or] at hother
          exact hcode.elim hother.1 (fun hc => hother.2 hc.1)
        rw [handleIncomingPackets_cons] at hrun
        obtain ⟨⟨phase₂, routed₂⟩, hrest, hrun⟩ := Option.map_eq_some_iff.mp hrun
        obtain ⟨-, rfl⟩ := Prod.mk.inj hrun
        obtain ⟨⟨phase₃, routed₃⟩, h₂, hrest⟩ := Option.bind_eq_some_iff.mp hrest
        have hrouted : routed₃ ++ [] = [Routed.response p] :=
          (Prod.mk.inj (Option.some.inj hrest)).2
        rw [List.append_nil] at hrouted
        obtain rfl | ⟨q, hq, rfl⟩ := handleIncoming_collecting h₂
        · cases hrouted
        · rw [queueDataPacket_code (List.cons.inj hrouted).1, hq]
      · obtain ⟨rfl, rfl⟩ := Prod.mk.inj (Option.some.inj h₁)
        exact htwo _ _ hrun

/-- Two responses are one too many. -/
theorem twice_not_oneReply {data : List Byte} (prev : ℤ) (code : Byte) :
    ¬OneReply settings prev code
      [replyHeader IG_DEV_INVALID_ARG, replyHeader IG_DEV_INVALID_ARG ++ data] := by
  rintro ⟨phase, p, hrun, -⟩
  have hreply (data : List Byte) (n : ℤ) := handleIncoming_response hver data n
    (show findTypeEntry IG_DEV_INVALID_ARG BODY_9 =
      some ⟨IG_DEV_INVALID_ARG, CTL_TODEV, NO_PAYLOAD, false, NO_PAYLOAD⟩ by decide) rfl (.inl rfl)
  have hfirst := hreply [] prev
  rw [List.append_nil] at hfirst
  rw [List.map_cons, List.map_cons, List.map_nil, handleIncomingPackets_cons, hfirst,
    Option.bind_some, handleIncomingPackets_cons, hreply] at hrun
  exact absurd (congrArg List.length (Prod.mk.inj (Option.some.inj hrun)).2)
    (show (2 : ℕ) ≠ 1 by omega)

/-- One packet with a header is the reply if it has the data that the table asks for. -/
theorem single_oneReply {code : Byte} {type : PacketType} (prev : ℤ) (reply : Byte) (data : List Byte)
    (htype : findTypeEntry reply BODY_9 = some type) (hdir : type.direction = CTL_TODEV)
    (hlen : data.length = replyLength type) (hcode : reply = IG_DEV_INVALID_ARG ∨ reply = code) :
    OneReply settings prev code [replyHeader reply ++ data] := by
  have hdata : type.inData = NO_PAYLOAD ∨ type.inData ≤ data.length := by
    unfold replyLength at hlen
    split_ifs at hlen with hno
    · exact .inl hno
    · exact .inr hlen.ge
  refine ⟨.waiting (4 + data.length), ⟨reply, data.length, some data⟩, ?_, ?_⟩
  · rw [List.map_cons, List.map_nil, handleIncomingPackets_cons,
      handleIncoming_response hver data prev htype hdir hdata]
    rfl
  · rcases hcode with hinvalid | rfl
    · exact .inl hinvalid
    · exact .inr ⟨rfl, type, by rw [hver, htype], by rw [hlen]⟩

/-- Of what the firmware sends, these are the packets that make one reply. -/
theorem oneReply_iff {features code : Byte} {sent : List (List Byte)} (prev : ℤ)
    (hsize : 8 ≤ settings.maxPacketSize) (h : Replied features code sent) :
    OneReply settings prev code sent ↔ RepliesOnce features code := by
  cases h with
  | answer hpins htype hdir hlen =>
      exact iff_of_true (single_oneReply hver prev code _ htype hdir hlen (.inr rfl)) hpins
  | @config bytes hf hcode hlen =>
      subst hcode
      obtain ⟨type, htype, hdata, hfirst, hsecond⟩ := handleIncoming_config hver prev hsize hlen
      refine iff_of_true ⟨.waiting 8, ⟨IG_DEV_GETPINCONFIG, 8, some bytes⟩, ?_,
        .inr ⟨rfl, type, by rw [hver, htype], ?_⟩⟩ ?_
      · rw [List.map_cons, List.map_cons, List.map_nil, handleIncomingPackets_cons, hfirst,
          Option.bind_some, handleIncomingPackets_cons, hsecond]
        rfl
      · rw [replyLength, hdata]
        rfl
      · rw [RepliesOnce, if_pos hf]
        decide
  | echo hf hcode hlen =>
      subst hcode
      refine iff_of_false (echo_not_oneReply hver prev hlen) ?_
      rw [RepliesOnce, if_pos hf]
      decide
  | refused hf hcode =>
      have hone : OneReply settings prev code [replyHeader IG_DEV_INVALID_ARG ++ []] :=
        single_oneReply hver prev _ [] (by decide :
          _ = some ⟨IG_DEV_INVALID_ARG, CTL_TODEV, NO_PAYLOAD, false, NO_PAYLOAD⟩) rfl rfl (.inl rfl)
      rw [List.append_nil] at hone
      refine iff_of_true hone ?_
      rw [RepliesOnce, if_neg hf]
      exact hcode
  | refusedTwice hf hcode =>
      refine iff_of_false (twice_not_oneReply hver prev code) ?_
      rw [RepliesOnce, if_neg hf]
      exact not_not.mpr hcode

end Reader

/-! ### The result -/

/-- The packets of two requests, for the device of version 0x0309. -/
theorem transmitted_getpins : Transmitted Binary64.nearest burstDevice (bareRequest IG_DEV_GETPINS)
    [0, 0, 0xCD, 0x1C] [] :=
  ⟨by decide, _, _, _, _, rfl, rfl, rfl, rfl, rfl, rfl⟩

theorem transmitted_zeroConfig : Transmitted Binary64.nearest burstDevice
    ⟨IG_DEV_SETPINCONFIG, 8, some (List.replicate 8 0)⟩ [0, 0, 0xCD, 0x1B] [List.replicate 8 0] :=
  ⟨by decide, _, _, _, _, rfl, rfl, rfl, rfl, rfl, rfl⟩

/-- A device with these features that waits for these packets. -/
def waitingMcu (features : Byte) (out : List (List Byte)) : Mcu :=
  { Mcu.cleared features with out := out }

end IguanaIR
