import IguanaIR.DeviceTransaction
import IguanaIR.Firmware.Transfer

/-! # Framing of outgoing transfers

What the daemon writes for one `IG_DEV_SEND` or `IG_DEV_PINBURST` against what the firmware takes
off its OUT endpoint for it.  The daemon writes all the data in packets, and in the control packet
its length as a byte.  The firmware reads as many bytes as that byte says, but stops at the first
one that does not fit into the buffer of 150 bytes. -/

namespace IguanaIR

open Firmware

variable {fl : ℚ → ℚ}

/-! ### What the daemon writes -/

/-- The request was accepted, and the transaction wrote the control packet `msg` and the data
packets `packets`, all of them, behind what `checkFeatures` may have written. -/
def Transmitted (fl : ℚ → ℚ) (d : Device) (request : DataPacket) (msg : List Byte)
    (packets : List (List Byte)) : Prop :=
  (checkIncomingProtocol (some d.idev.version) request false).isSome = true ∧
  ∃ d₁ p d' a, prepare fl (fun d => checkFeatures fl d UNKNOWN_FEATURES) d request = some (d₁, p) ∧
    d₁.usb.outcome.controlSent = true ∧ d₁.usb.outcome.failAt = none ∧
    deviceTransaction fl d request false = some (d', a) ∧
    msg = p.msg ∧ d'.usb.wire = d₁.usb.wire ++ msg :: packets

/-- The firmware reads the control packet, and then takes exactly the data packets off the
endpoint: whatever is queued behind them is next. -/
def Framed (msg : List Byte) (packets : List (List Byte)) : Prop :=
  ∀ (m : Mcu) (queue : List (List Byte)), ¬halted m → (∀ p ∈ queue, p ≠ []) →
    m.out = msg :: (packets ++ queue) → ∃ m₁ code m₂ ok, readControl m = some (m₁, code) ∧
      readBuffer m₁ = some (m₂, ok) ∧ m₂.out = queue

/-- The bytes before the last packet are fewer than the firmware reads; without data, the length
byte is 0. -/
def TransferFits (maxPacketSize : ℕ) (dataLen : ℤ) : Prop :=
  if dataLen ≤ 0 then dataLen % 256 = 0
  else (dataLen - 1) / maxPacketSize * maxPacketSize < min (dataLen % 256) 151

instance (maxPacketSize : ℕ) (dataLen : ℤ) : Decidable (TransferFits maxPacketSize dataLen) := by
  unfold TransferFits
  infer_instance

/-- With the packets of this hardware: up to 152 bytes, or a negative length without its low
byte. -/
theorem transferFits_eight (dataLen : ℤ) :
    TransferFits 8 dataLen ↔ (0 ≤ dataLen ∧ dataLen ≤ 152) ∨ (dataLen < 0 ∧ dataLen % 256 = 0) := by
  unfold TransferFits
  split_ifs <;> omega

theorem sendPackets_eq_pieces (m : ℕ) (buffer : List Byte) :
    sendPackets m buffer false = Chunks.pieces m buffer := by
  simp [sendPackets, Chunks.pieces]

theorem streamTail_length {checks : Device → Option (Device × Bool)} {d d' : Device} {code : Byte}
    {tail : List Byte} (h : streamTail fl checks d code = some (d', tail)) : tail.length ≤ 3 := by
  unfold streamTail at h
  split_ifs at h
  · unfold channelBytes at h
    split_ifs at h
    · simp only [Option.bind_eq_bind, Option.bind_eq_some_iff, Prod.exists] at h
      obtain ⟨d₁, cycles, -, h⟩ := h
      obtain ⟨-, rfl⟩ := Prod.mk.inj (Option.some.inj h)
      exact Nat.le_refl 3
    · obtain ⟨-, rfl⟩ := Prod.mk.inj (Option.some.inj h)
      exact Nat.le_add_left 1 2
  · obtain ⟨-, rfl⟩ := Prod.mk.inj (Option.some.inj h)
    exact Nat.zero_le 3

theorem checksumBlock_dataLen {code : Byte} {request request' : DataPacket}
    (h : checksumBlock code request = some request') : request'.dataLen = request.dataLen := by
  unfold checksumBlock at h
  split_ifs at h
  · obtain ⟨block, -, rfl⟩ := Option.map_eq_some_iff.mp h
    rfl
  · obtain rfl := Option.some.inj h
    rfl

/-- A device from version 3 on is told the length of the data in the first argument. -/
theorem prepare_stream {checks : Device → Option (Device × Bool)} {d d₁ : Device}
    {request : DataPacket} {p : Prepared}
    (hcode : request.code = IG_DEV_SEND ∨ request.code = IG_DEV_PINBURST)
    (hver : 3 ≤ d.idev.version) (h : prepare fl checks d request = some (d₁, p)) :
    (∃ tail, tail.length ≤ 3 ∧ p.msg = controlPacket (deviceCode request.code d.idev.version)
      (BitVec.ofInt 8 request.dataLen :: tail)) ∧
    p.sent = 0 ∧ p.request.dataLen = request.dataLen := by
  have hid : request.code ≠ IG_DEV_SETID := by rcases hcode with hc | hc <;> rw [hc] <;> decide
  have hblock : request.code ≠ IG_DEV_WRITEBLOCK := by
    rcases hcode with hc | hc <;> rw [hc] <;> decide
  have hstream : hasDataStream request.code := by
    rcases hcode with hc | hc <;> rw [hc] <;> decide
  have hresend : request.code ≠ IG_DEV_RESEND := by
    rcases hcode with hc | hc <;> rw [hc] <;> decide
  simp only [prepare, replaceLabel, if_neg hid, forgetFeatures, if_neg hblock,
    Option.bind_eq_bind, Option.bind_some, Option.bind_eq_some_iff] at h
  obtain ⟨request', hsum, h⟩ := h
  have hcode' := checksumBlock_code hsum
  have hlen := checksumBlock_dataLen hsum
  rw [packRequest, hcode', if_pos hstream, if_pos hver] at h
  simp only [streamArguments, hcode', if_neg hresend, Option.bind_eq_bind,
    Option.bind_eq_some_iff, Prod.exists] at h
  obtain ⟨d₂, tail, htail, h⟩ := h
  obtain ⟨-, rfl⟩ := Prod.mk.inj (Option.some.inj h)
  exact ⟨⟨tail, streamTail_length htail, by rw [hlen]⟩, rfl, hlen⟩

/-- The packets behind the control packet: the pieces of the data, where there is any. -/
theorem dataStream_pieces {d : Device} {p : Prepared} {sent : Bool} {packets : List (List Byte)}
    (hver : 3 ≤ d.idev.version) (hsent : p.sent = 0) (h : dataStream d p none = some (sent, packets)) :
    sent = true ∧ ((p.request.dataLen ≤ 0 ∧ packets = []) ∨
      ∃ bytes, (bytes.length : ℤ) = p.request.dataLen ∧ bytes ≠ [] ∧
        packets = Chunks.pieces d.idev.maxPacketSize bytes) := by
  have hold : ¬d.idev.version < 3 := BitVec.not_lt.mpr hver
  unfold dataStream at h
  rw [hsent] at h
  split_ifs at h with hpos
  · simp only [Option.bind_eq_bind, Option.bind_eq_some_iff] at h
    obtain ⟨bytes, hbytes, h⟩ := h
    have hlen := readBytes_length hbytes
    simp only [sendData, hold, decide_false, Bool.false_and, sendPackets_eq_pieces] at h
    obtain ⟨rfl, rfl⟩ := Prod.mk.inj (Option.some.inj h)
    refine ⟨rfl, .inr ⟨bytes, hlen, ?_, rfl⟩⟩
    rintro rfl
    simp at hlen
    omega
  · obtain ⟨rfl, rfl⟩ := Prod.mk.inj (Option.some.inj h)
    exact ⟨rfl, .inl ⟨by omega, rfl⟩⟩

/-- The control packet and the data of a transfer. -/
theorem transmitted_spec {d : Device} {request : DataPacket} {msg : List Byte}
    {packets : List (List Byte)}
    (hcode : request.code = IG_DEV_SEND ∨ request.code = IG_DEV_PINBURST)
    (hver : 3 ≤ d.idev.version) (h : Transmitted fl d request msg packets) :
    (∃ tail, tail.length ≤ 3 ∧ msg = controlPacket (deviceCode request.code d.idev.version)
      (BitVec.ofInt 8 request.dataLen :: tail)) ∧
    ((request.dataLen ≤ 0 ∧ packets = []) ∨
      ∃ bytes, (bytes.length : ℤ) = request.dataLen ∧ bytes ≠ [] ∧
        packets = Chunks.pieces d.idev.maxPacketSize bytes) := by
  obtain ⟨haccept, d₁, p, d', a, hprep, hok, hfail, htrans, rfl, hwire⟩ := h
  obtain ⟨type, htype⟩ := Option.isSome_iff_exists.mp haccept
  obtain ⟨hmsg, hsent, hlen⟩ := prepare_stream hcode hver hprep
  obtain ⟨features, cycles, hkeeps⟩ := (prepare_spec (fun _ _ _ hc => checkFeatures_keeps hc) hprep).1
  have hver₁ : 3 ≤ d₁.idev.version := by
    rw [hkeeps]
    exact hver
  have hpacket : d₁.idev.maxPacketSize = d.idev.maxPacketSize := by rw [hkeeps]
  have hsplit : ¬splitsRequest d.idev.version request.code := fun hs => by
    rcases hcode with hc | hc <;> rw [hc] at hs <;> exact absurd hs.2 (by decide)
  simp only [deviceTransaction, if_neg hsplit, wholeTransaction, transaction, htype, hprep,
    Option.bind_eq_bind, Option.bind_some, transmit, hok, hfail, if_true] at htrans
  obtain ⟨⟨sent, packets'⟩, hstream, htrans⟩ := Option.map_eq_some_iff.mp htrans
  obtain ⟨rfl, -⟩ := Prod.mk.inj htrans
  obtain ⟨-, hpieces⟩ := dataStream_pieces hver₁ hsent hstream
  obtain rfl : packets' = packets := by
    have htail := List.append_cancel_left hwire
    exact (List.cons.inj htail).2
  rw [hlen, hpacket] at hpieces
  exact ⟨hmsg, hpieces⟩

/-! ### What the firmware takes -/

/-- A control packet with a length byte of `n` makes the firmware take the packets that hold
`consumed n` bytes. -/
theorem readTransfer_out {code n : Byte} {tail : List Byte} {out : List (List Byte)} {m : Mcu}
    (htail : tail.length ≤ 3) (hrun : ¬halted m) (hne : ∀ p ∈ out, p ≠ [])
    (hout : m.out = controlPacket code (n :: tail) :: out) :
    ∃ m₁, readControl m = some (m₁, code) ∧
      (readBuffer m₁).map (·.1.out) = Chunks.dropCover (consumed n.toNat) out := by
  obtain ⟨m₁, hread, ⟨ram, hram⟩, -, harg, hbelow⟩ := readControl_some
    (show (n :: tail).length ≤ 4 from Nat.succ_le_succ htail) hout
  have hout₁ : m₁.out = out := by rw [hram]
  have hlength : m₁.ctl CDATA = n := harg 0 (by omega)
  have hrun₁ : ¬halted m₁ := by
    unfold halted
    rw [hbelow loaderFlags (by decide) (by decide) (by decide)]
    exact hrun
  refine ⟨m₁, hread, ?_⟩
  rw [readBuffer_out hrun₁ (by rwa [hout₁]), hlength, hout₁]

theorem framed_iff {code n : Byte} {tail : List Byte} {packets : List (List Byte)}
    (htail : tail.length ≤ 3) (hne : ∀ p ∈ packets, p ≠ []) :
    Framed (controlPacket code (n :: tail)) packets ↔
      ∀ queue : List (List Byte), (∀ p ∈ queue, p ≠ []) →
        Chunks.dropCover (consumed n.toNat) (packets ++ queue) = some queue := by
  have hall (queue : List (List Byte)) (hq : ∀ p ∈ queue, p ≠ []) : ∀ p ∈ packets ++ queue, p ≠ [] :=
    fun p hp => (List.mem_append.mp hp).elim (hne p) (hq p)
  constructor
  · intro h queue hq
    have hclear : ¬halted (Mcu.cleared 0) := by decide
    have hrun : ¬halted ({ Mcu.cleared 0 with
        out := controlPacket code (n :: tail) :: (packets ++ queue) } : Mcu) := hclear
    obtain ⟨m₁, hread, hbuffer⟩ := readTransfer_out htail hrun (hall queue hq) rfl
    obtain ⟨m₁', code', m₂, ok, hread', hbuffer', hout⟩ := h _ queue hrun hq rfl
    obtain ⟨rfl, -⟩ := Prod.mk.inj (Option.some.inj (hread.symm.trans hread'))
    rw [← hbuffer, hbuffer', Option.map_some, hout]
  · intro h m queue hrun hq hout
    obtain ⟨m₁, hread, hbuffer⟩ := readTransfer_out htail hrun (hall queue hq) hout
    rw [h queue hq] at hbuffer
    obtain ⟨⟨m₂, ok⟩, hbuffer, hout₂⟩ := Option.map_eq_some_iff.mp hbuffer
    exact ⟨m₁, code, m₂, ok, hread, hbuffer, hout₂⟩

/-- The pieces of `bytes` are what is taken exactly when the last one is. -/
theorem dropCover_pieces_iff {m k : ℕ} {bytes : List Byte} (hm : 0 < m) (hbytes : bytes ≠ [])
    (hk : k ≤ bytes.length) :
    (∀ queue : List (List Byte), (∀ p ∈ queue, p ≠ []) →
        Chunks.dropCover k (Chunks.pieces m bytes ++ queue) = some queue) ↔
      (bytes.length - 1) / m * m < k := by
  obtain ⟨init, last, hpieces, hall, hlen⟩ := Chunks.pieces_split hm hbytes
  have hsum : init.flatten.length + last.length = bytes.length := by
    rw [← List.length_append, hall]
  rw [hpieces, ← hlen]
  constructor
  · intro h
    by_contra hle
    obtain ⟨rs, hrs⟩ := Chunks.dropCover_of_le [last] (Nat.not_lt.mp hle)
    have hnil := h [] (List.forall_mem_nil _)
    rw [List.append_nil, hrs] at hnil
    exact absurd (Option.some.inj hnil) (by simp)
  · intro hlt queue _
    rw [List.append_assoc, List.singleton_append]
    exact Chunks.dropCover_append queue hlt (by omega)

/-- **Outgoing transfers are framed** exactly when they fit: then the firmware takes the packets
that the daemon wrote for the request, neither more nor fewer. -/
theorem transfer_framed_iff {d : Device} {request : DataPacket} {msg : List Byte}
    {packets : List (List Byte)}
    (hcode : request.code = IG_DEV_SEND ∨ request.code = IG_DEV_PINBURST)
    (hver : 3 ≤ d.idev.version) (h : Transmitted fl d request msg packets) :
    Framed msg packets ↔ TransferFits d.idev.maxPacketSize request.dataLen := by
  obtain ⟨⟨tail, htail, rfl⟩, hpackets⟩ := transmitted_spec hcode hver h
  have hbyte : (BitVec.ofInt 8 request.dataLen).toNat = (request.dataLen % 256).toNat :=
    BitVec.toNat_ofInt ..
  have hm := d.idev.packetSize_pos
  unfold TransferFits
  obtain ⟨hle, rfl⟩ | ⟨bytes, hlen, hbytes, rfl⟩ := hpackets
  · rw [framed_iff htail (List.forall_mem_nil _), hbyte, if_pos hle]
    simp only [List.nil_append]
    have hnonneg := Int.emod_nonneg request.dataLen (by decide : (256 : ℤ) ≠ 0)
    constructor
    · intro hframed
      by_contra hne
      have hnil := hframed [] (List.forall_mem_nil _)
      rw [Chunks.dropCover_nil (by unfold consumed; omega)] at hnil
      cases hnil
    · intro hzero queue _
      rw [hzero]
      exact Chunks.dropCover_zero queue
  · have hpos := List.length_pos_iff.mpr hbytes
    rw [framed_iff htail (fun p hp => Chunks.ne_nil_of_mem_pieces hm hp), hbyte,
      dropCover_pieces_iff hm hbytes (by unfold consumed; omega), if_neg (by omega)]
    have hcast : (request.dataLen - 1) / (d.idev.maxPacketSize : ℤ) * d.idev.maxPacketSize =
        ((bytes.length - 1) / d.idev.maxPacketSize * d.idev.maxPacketSize : ℕ) := by
      rw [← hlen, Nat.cast_mul, Int.natCast_ediv, Nat.cast_sub hpos]
      rfl
    rw [hcast]
    unfold consumed
    omega

/-- A device of version 0x0309 that takes all the packets of one request. -/
def burstDevice : Device :=
  startWorker 8 eight_pos ⟨0, ascii "0", none, none⟩ (1, 2) 0x0309 ⟨[⟨true, none, .timeout, []⟩], []⟩

theorem transfer_framed_burst : ∃ msg packets,
    Transmitted Binary64.nearest burstDevice ⟨IG_DEV_PINBURST, 3, some [1, 2, 3]⟩ msg packets ∧
      Framed msg packets :=
  have h : Transmitted Binary64.nearest burstDevice ⟨IG_DEV_PINBURST, 3, some [1, 2, 3]⟩
      [0, 0, 0xCD, 0x1E, 3] [[1, 2, 3]] :=
    ⟨by decide, _, _, _, _, rfl, rfl, rfl, rfl, rfl, rfl⟩
  ⟨_, _, h, (transfer_framed_iff (.inr rfl) (by decide) h).mpr (by decide)⟩

set_option maxRecDepth 4000 in
/-- 160 bytes are written, but the firmware leaves the last of the packets on the endpoint. -/
theorem transfer_not_framed : ∃ msg packets,
    Transmitted Binary64.nearest burstDevice
      ⟨IG_DEV_PINBURST, 160, some (List.replicate 160 0xCD)⟩ msg packets ∧ ¬Framed msg packets := by
  refine ⟨[0, 0, 0xCD, 0x1E, 160], List.replicate 20 (List.replicate 8 0xCD),
    ⟨by decide, _, _, _, _, rfl, rfl, rfl, rfl, rfl, rfl⟩, fun h => ?_⟩
  have hframed := (@framed_iff 0x1E 160 [] _ (by decide) (by decide)).mp h []
    (List.forall_mem_nil _)
  exact absurd hframed (by decide)

end IguanaIR
