import IguanaIR.Requests

/-! # The check of the payload

`payloadMatch` compares the size of the table with the length of the packet as two bytes, while
`readDataPacket` takes the length for a signed number of 32 bits and reads nothing when that is
not positive.  The data of an accepted request has the size of the table exactly when the length
survives both: it fits a byte, is below the size that stands for no payload, and is negative only
where the table wants no payload anyway. -/

namespace IguanaIR

variable {fl : ℚ → ℚ}

/-- The data has the fixed size of the table, or there is none where the table wants none. -/
def PayloadExact (type : PacketType) (data : Option (List Byte)) : Prop :=
  (type.outData = NO_PAYLOAD → data = none) ∧
    (type.outData ≠ NO_PAYLOAD → type.outData ≠ ANY_PAYLOAD →
      ∃ bytes, data = some bytes ∧ bytes.length = type.outData)

/-- The version whose table holds for the session, the daemon's own on the ctl socket. -/
def Session.protocol (s : Session) : Version :=
  (s.device.map (·.idev.version)).getD IG_PROTOCOL_VERSION

/-- The length is the one that `payloadMatch` compares. -/
def LengthCompared (code : Byte) (version : Version) (dataLen : ℤ) : Prop :=
  ∀ type ∈ findTypeEntry code version, type.outData = ANY_PAYLOAD ∨
    (dataLen < NO_PAYLOAD ∧ (dataLen < 0 → type.outData = NO_PAYLOAD))

instance (code : Byte) (version : Version) (dataLen : ℤ) :
    Decidable (LengthCompared code version dataLen) :=
  inferInstanceAs (Decidable (∀ type ∈ findTypeEntry code version, _ ∨ _ ∧ (_ → _)))

theorem checkIncomingProtocol_some {version : Option Version} {request : DataPacket}
    {nullResponse : Bool} {type : PacketType}
    (h : checkIncomingProtocol version request nullResponse = some type) :
    findTypeEntry request.code (version.getD IG_PROTOCOL_VERSION) = some type ∧
      type.direction = CTL_TODEV ∧
      payloadMatch (BitVec.ofNat 8 type.outData) (BitVec.ofInt 8 request.dataLen) = true := by
  unfold checkIncomingProtocol at h
  split at h
  · cases h
  · next hfind =>
      split_ifs at h with hdir hmatch
      obtain rfl := Option.some.inj h
      exact ⟨hfind, not_not.mp hdir, by simpa using hmatch⟩

theorem payloadExact_iff {version : Option Version} {request : DataPacket} {type : PacketType}
    (hfilled : request.Filled) (h : checkIncomingProtocol version request false = some type) :
    PayloadExact type request.data ↔
      LengthCompared request.code (version.getD IG_PROTOCOL_VERSION) request.dataLen := by
  obtain ⟨hfind, -, hmatch⟩ := checkIncomingProtocol_some h
  have hle := findTypeEntry_outData_le hfind
  rw [payloadMatch_iff hle] at hmatch
  unfold LengthCompared PayloadExact
  rw [hfind]
  simp only [Option.mem_def, Option.some.injEq, forall_eq']
  unfold DataPacket.Filled at hfilled
  unfold NO_PAYLOAD ANY_PAYLOAD at *
  by_cases hpos : request.dataLen ≤ 0
  · rw [if_pos hpos] at hfilled
    rw [hfilled]
    constructor
    · intro ⟨_, hfixed⟩
      by_cases hany : type.outData = 0
      · exact .inl hany
      · refine .inr ⟨by omega, fun _ => ?_⟩
        by_contra hno
        obtain ⟨_, hnone, _⟩ := hfixed hno hany
        cases hnone
    · intro hlen
      refine ⟨fun _ => rfl, fun hno hany => ?_⟩
      -- a length of 0 only matches a size of 0 or none, and a negative one is for no payload
      omega
  · rw [if_neg hpos] at hfilled
    obtain ⟨bytes, hdata, hbytes⟩ := hfilled
    rw [hdata]
    constructor
    · intro ⟨hnone, hfixed⟩
      by_cases hany : type.outData = 0
      · exact .inl hany
      · refine .inr ⟨?_, by omega⟩
        have hno : type.outData ≠ 255 := fun hno => by cases hnone hno
        obtain ⟨_, hsome, hsize⟩ := hfixed hno hany
        obtain rfl := Option.some.inj hsome
        omega
    · intro hlen
      exact ⟨by omega, fun _ _ => ⟨bytes, rfl, by omega⟩⟩

/-! ### The reads of a fixed size -/

variable (fl) in
/-- The reads of the data on its way to the device are in bounds. -/
def Transfers (d : Device) (request : DataPacket) : Prop :=
  ∀ checks, ∃ d' p, prepare fl checks d request = some (d', p) ∧
    ∀ failAt, (dataStream d' p failAt).isSome = true

variable (fl) in
/-- The reads of a fixed size that the daemon makes from the data of an accepted request, those
of a split pin configuration in each half. -/
def FixedReads (s : Session) : Prop :=
  (s.request.code = IG_EXCH_VERSIONS → (exchVersions s).isSome = true) ∧
  ∀ d, s.device = some d →
    (s.request.code = IG_DEV_SETCHANNELS → (checkFeatures fl d IG_SLOT_DEV).isSome = true →
      (setChannels fl s d).isSome = true) ∧
    (s.request.code = IG_DEV_SETCARRIER → (setCarrier s d).isSome = true) ∧
    (s.request.code = IG_DEV_SETPINS ∨ s.request.code = IG_DEV_WRITEBLOCK ∨
      s.request.code = IG_DEV_SETPINCONFIG → Transfers fl d s.request) ∧
    (s.request.code = IG_DEV_SETPINCONFIG →
      Transfers fl d ⟨IG_DEV_SETCONFIG0, 4, s.request.data⟩ ∧
      Transfers fl d ⟨IG_DEV_SETCONFIG1, 4, s.request.data.map (·.drop 4)⟩)

/-- The checksum leaves the number of bytes alone, and reads none that is not there. -/
theorem checksumBlock_filled (code : Byte) {request : DataPacket} {bytes : List Byte}
    (hdata : request.data = some bytes) (hlen : request.dataLen ≤ bytes.length) :
    ∃ request' bytes', checksumBlock code request = some request' ∧
      request'.code = request.code ∧ request'.dataLen = request.dataLen ∧
      request'.data = some bytes' ∧ bytes'.length = bytes.length := by
  unfold checksumBlock
  split_ifs with hblock
  · have hread : readBytes request.data 68 = some (bytes.take 68) := by
      rw [hdata]
      exact readBytes_some (n := 68) (by omega)
    rw [hread]
    refine ⟨_, _, rfl, rfl, rfl, rfl, ?_⟩
    rw [hdata, List.length_append, addChecksum_length, List.length_take, Option.getD_some,
      List.length_drop]
    omega
  · exact ⟨request, bytes, rfl, rfl, rfl, hdata, rfl⟩

/-- A request without a data stream that has the bytes it speaks of can be transferred. -/
theorem transfers_of_filled {d : Device} {request : DataPacket} {bytes : List Byte}
    (hid : request.code ≠ IG_DEV_SETID) (hstream : ¬hasDataStream request.code)
    (hdata : request.data = some bytes) (hpos : 0 ≤ request.dataLen)
    (hlen : request.dataLen ≤ bytes.length) : Transfers fl d request := by
  intro checks
  obtain ⟨request', bytes', hsum, hcode, hlen', hdata', hsize⟩ := checksumBlock_filled
    (deviceCode request.code (forgetFeatures d request.code).idev.version) hdata hlen
  obtain ⟨n, hn⟩ := Int.eq_ofNat_of_zero_le hpos
  have hread (k : ℕ) (hk : k ≤ n) : readBytes request'.data k = some (bytes'.take k) := by
    rw [hdata', readBytes_some (by omega)]
  have hsome (p : Prepared) (hp : p.request = request') (d' : Device) (failAt : Option ℕ) :
      (dataStream d' p failAt).isSome = true := by
    unfold dataStream
    rw [hp, hlen', hn]
    split_ifs
    · rw [hread n (Nat.le_refl n)]
      rfl
    · rfl
  have hstream' : ¬hasDataStream request'.code := by rwa [hcode]
  simp only [prepare, replaceLabel, if_neg hid, Option.bind_eq_bind, Option.bind_some, hsum,
    packRequest, if_neg hstream']
  split_ifs
  · exact ⟨_, _, rfl, fun failAt => hsome _ rfl _ failAt⟩
  · have hmin : min request'.dataLen 4 = (min n 4 : ℕ) := by omega
    rw [hmin, hread _ (Nat.min_le_left n 4)]
    exact ⟨_, _, rfl, fun failAt => hsome _ rfl _ failAt⟩

theorem DataPacket.Filled.length {p : DataPacket} {bytes : List Byte} (h : p.Filled)
    (hdata : p.data = some bytes) : (bytes.length : ℤ) = p.dataLen := by
  unfold DataPacket.Filled at h
  split_ifs at h
  · rw [hdata] at h
    cases h
  · obtain ⟨bytes', hdata', hlen⟩ := h
    obtain rfl := Option.some.inj (hdata.symm.trans hdata')
    exact hlen

/-- The sizes that the table gives for the requests whose data is read by its fixed size. -/
theorem types_fixedSizes : ∀ t ∈ types,
    (t.type.code = IG_EXCH_VERSIONS → t.type.outData = 2) ∧
    (t.type.code = IG_DEV_SETCHANNELS → t.type.outData = 1) ∧
    (t.type.code = IG_DEV_SETCARRIER → t.type.outData = 4) ∧
    (t.type.code = IG_DEV_SETPINS → t.type.outData = 2) ∧
    (t.type.code = IG_DEV_SETPINCONFIG → t.type.outData = 8) ∧
    (t.type.code = IG_DEV_WRITEBLOCK → t.type.outData = 68) := by decide

theorem readBytes_of_length {data : Option (List Byte)} {bytes : List Byte} {n : ℕ}
    (hdata : data = some bytes) (hlen : bytes.length = n) :
    readBytes data n = some bytes := by
  rw [hdata, readBytes_some (by omega), ← hlen, List.take_length]

theorem fixedReads_of_exact {s : Session} {type : PacketType} {version : Version}
    (hfilled : s.request.Filled) (hfind : findTypeEntry s.request.code version = some type)
    (h : PayloadExact type s.request.data) : FixedReads fl s := by
  obtain ⟨hcode, t, ht, rfl⟩ := findTypeEntry_some hfind
  obtain ⟨hexch, hchannels, hcarrier, hpins, hconfig, hblock⟩ := types_fixedSizes t ht
  rw [hcode] at hexch hchannels hcarrier hpins hconfig hblock
  have hfixed (n : ℕ) (hn : t.type.outData = n) (hno : n ≠ NO_PAYLOAD) (hany : n ≠ ANY_PAYLOAD) :
      ∃ bytes, s.request.data = some bytes ∧ bytes.length = n := by
    obtain ⟨bytes, hdata, hlen⟩ := h.2 (by rwa [hn]) (by rwa [hn])
    exact ⟨bytes, hdata, hlen.trans hn⟩
  refine ⟨fun hc => ?_, fun d hd => ⟨fun hc hk => ?_, fun hc => ?_, fun hc => ?_, fun hc => ?_⟩⟩
  · obtain ⟨bytes, hdata, hlen⟩ := hfixed 2 (hexch hc) (by decide) (by decide)
    simp only [exchVersions, Option.bind_eq_bind]
    rw [show (2 : ℤ) = (2 : ℕ) from rfl, readBytes_of_length hdata hlen]
    rfl
  · obtain ⟨bytes, hdata, hlen⟩ := hfixed 1 (hchannels hc) (by decide) (by decide)
    obtain ⟨⟨d', slot⟩, hk⟩ := Option.isSome_iff_exists.mp hk
    simp only [setChannels, Option.bind_eq_bind]
    rw [hk, Option.bind_some, show (1 : ℤ) = (1 : ℕ) from rfl, readBytes_of_length hdata hlen]
    rfl
  · obtain ⟨bytes, hdata, hlen⟩ := hfixed 4 (hcarrier hc) (by decide) (by decide)
    simp only [setCarrier, Option.bind_eq_bind]
    rw [show (4 : ℤ) = (4 : ℕ) from rfl, readBytes_of_length hdata hlen]
    rfl
  · obtain ⟨bytes, hdata, hid, hstream⟩ : ∃ bytes, s.request.data = some bytes ∧
        s.request.code ≠ IG_DEV_SETID ∧ ¬hasDataStream s.request.code := by
      rcases hc with hc | hc | hc
      · obtain ⟨bytes, hdata, -⟩ := hfixed 2 (hpins hc) (by decide) (by decide)
        exact ⟨bytes, hdata, by rw [hc]; decide, by rw [hc]; decide⟩
      · obtain ⟨bytes, hdata, -⟩ := hfixed 68 (hblock hc) (by decide) (by decide)
        exact ⟨bytes, hdata, by rw [hc]; decide, by rw [hc]; decide⟩
      · obtain ⟨bytes, hdata, -⟩ := hfixed 8 (hconfig hc) (by decide) (by decide)
        exact ⟨bytes, hdata, by rw [hc]; decide, by rw [hc]; decide⟩
    have hlen := hfilled.length hdata
    exact transfers_of_filled hid hstream hdata (by omega) (by omega)
  · obtain ⟨bytes, hdata, hlen⟩ := hfixed 8 (hconfig hc) (by decide) (by decide)
    rw [hdata]
    have hrest : (4 : ℤ) ≤ (bytes.drop 4).length := by
      rw [List.length_drop]
      omega
    exact ⟨transfers_of_filled (show IG_DEV_SETCONFIG0 ≠ IG_DEV_SETID by decide)
        (show ¬hasDataStream IG_DEV_SETCONFIG0 by decide) rfl (show (0 : ℤ) ≤ 4 by decide)
        (show (4 : ℤ) ≤ bytes.length by omega),
      transfers_of_filled (show IG_DEV_SETCONFIG1 ≠ IG_DEV_SETID by decide)
        (show ¬hasDataStream IG_DEV_SETCONFIG1 by decide) rfl (show (0 : ℤ) ≤ 4 by decide) hrest⟩

/-- **The check of the payload is sound** for exactly the lengths that it compares: then the data
of an accepted request has the size of the table, and the reads of a fixed size are in bounds. -/
theorem payload_sound_iff {a : Arrival} {s : Session} {code : Byte}
    (hread : readDataPacket a = some s.request) (hcode : acceptedCode s = some code) :
    (∀ type ∈ findTypeEntry code (s.protocol), PayloadExact type s.request.data) ∧
        FixedReads fl (s.setCode code) ↔
      LengthCompared code s.protocol s.request.dataLen := by
  have hfilled : (s.setCode code).request.Filled := (readDataPacket_filled hread).1
  obtain ⟨-, type, hcheck⟩ := acceptedCode_some hcode
  have hfind : findTypeEntry code s.protocol = some type := (checkIncomingProtocol_some hcheck).1
  have hiff : PayloadExact type s.request.data ↔
      LengthCompared code s.protocol s.request.dataLen := payloadExact_iff hfilled hcheck
  rw [hfind]
  simp only [Option.mem_def, Option.some.injEq, forall_eq']
  exact ⟨fun h => hiff.mp h.1, fun h =>
    ⟨hiff.mpr h, fixedReads_of_exact hfilled hfind (hiff.mpr h)⟩⟩

/-- A client of a device of version 0x0309 that sets the carrier. -/
def carrierSession : Session where
  server := ⟨false, []⟩
  device := some (startWorker 8 eight_pos ⟨0, ascii "0", none, none⟩ (1, 2) 0x0309 ⟨[], []⟩)
  target := ⟨3, 0, IG_PROTOCOL_VERSION⟩
  request := ⟨IG_DEV_SETCARRIER, 4, some [0, 0, 0x94, 0x70]⟩

theorem payload_sound_carrier :
    (∀ type ∈ findTypeEntry IG_DEV_SETCARRIER 0x0309,
        PayloadExact type (some [0, 0, 0x94, 0x70])) ∧
      FixedReads Binary64.nearest (carrierSession.setCode IG_DEV_SETCARRIER) :=
  (payload_sound_iff (a := .whole IG_DEV_SETCARRIER 4 [0, 0, 0x94, 0x70]) (s := carrierSession)
    (by decide) (by decide)).mpr (by decide)

/-- A length of -254 passes for one of 2, and the version is read through `NULL`. -/
theorem payload_unsound_version :
    readDataPacket (.whole IG_EXCH_VERSIONS (-254) []) = some ⟨IG_EXCH_VERSIONS, -254, none⟩ ∧
      acceptedCode ⟨⟨false, []⟩, none, ⟨3, 0, 0⟩, ⟨IG_EXCH_VERSIONS, -254, none⟩⟩
        = some IG_EXCH_VERSIONS ∧
      ¬FixedReads Binary64.nearest
        ⟨⟨false, []⟩, none, ⟨3, 0, 0⟩, ⟨IG_EXCH_VERSIONS, -254, none⟩⟩ :=
  ⟨by decide, by decide, fun h => absurd (h.1 rfl) (by decide)⟩

end IguanaIR
