import IguanaIR.DeviceInterface
import Mathlib.Data.BitVec

/-! # Transactions with a device

`deviceTransaction` of `device-interface.c`, with `checkFeatures` and `oldPinConfig`.

`transaction` takes `checkFeatures` as the argument `checks`, because the two call each other:
the request for the features is itself a transaction, but one that never asks for them.  Left
out are the logging, the toggle workaround of OS X and the flushing of stale responses, for
`ack` already stands for what `idev->response` holds when the wait is over.

`fl` is the rounding of `double` operations, as in `computeCarrierDelays`. -/

namespace IguanaIR

variable (fl : ℚ → ℚ) (checks : Device → Option (Device × Bool))

/-- Does the request's data travel in packets of its own? -/
def hasDataStream (code : Byte) : Prop :=
  code = IG_DEV_SEND ∨ code = IG_DEV_RESEND ∨ code = IG_DEV_PINBURST ∨ code = IG_DEV_REPEATER

/-- Do the channels and the delays belong to the request? -/
def hasChannels (code : Byte) : Prop :=
  code = IG_DEV_SEND ∨ code = IG_DEV_RESEND ∨ code = IG_DEV_REPEATER

instance (code : Byte) : Decidable (hasDataStream code) := inferInstanceAs (Decidable (_ ∨ _))

instance (code : Byte) : Decidable (hasChannels code) := inferInstanceAs (Decidable (_ ∨ _))

/-- A device with a loader and a body: both bytes of its version are set. -/
def hasBody (version : Version) : Prop := version &&& 0x00FF ≠ 0 ∧ version &&& 0xFF00 ≠ 0

instance (version : Version) : Decidable (hasBody version) := inferInstanceAs (Decidable (_ ∧ _))

/-- `msg[CODE_OFFSET]`. -/
def deviceCode (code : Byte) (version : Version) : Byte :=
  let code :=
    if code = IG_DEV_GETID then IG_DEV_EXECUTE
    else if code = IG_DEV_SETID then IG_DEV_WRITEBLOCK
    else code
  (translateDevice code version true).getD code

/-- The label in the data of a request, `some none` being `NULL`. -/
def givenLabel : Option (List Byte) → Option (Option CString)
  | none => some none
  | some bytes => (cString bytes).map some

/-- The request with the instructions for `IG_DEV_SETID` in place of the label. -/
def replaceLabel (request : DataPacket) (version : Version) : Option DataPacket :=
  if request.code = IG_DEV_SETID then
    (givenLabel request.data).map (fun label =>
      { request with data := some (generateIDBlock label version), dataLen := 68 })
  else some request

/-- The checksum of the bytes from `data[4]` to `data[67]`, stored in `data[2]` and `data[3]`. -/
def addChecksum (block : List Byte) : List Byte :=
  let chksum : BitVec 16 := ((block.drop 4).map (·.setWidth 16)).sum
  (block.set 2 (chksum.extractLsb' 8 8)).set 3 (chksum.extractLsb' 0 8)

@[simp] theorem addChecksum_length (block : List Byte) :
    (addChecksum block).length = block.length := by
  simp [addChecksum]

/-- The checksum is computed for what the device will take for an `IG_DEV_WRITEBLOCK`. -/
def checksumBlock (deviceCode : Byte) (request : DataPacket) : Option DataPacket :=
  if deviceCode = IG_DEV_WRITEBLOCK ∧ request.dataLen = 68 then
    (readBytes request.data 68).map (fun block =>
      { request with data := some (addChecksum block ++ (request.data.getD []).drop 68) })
  else some request

/-- `realloc` to `n` bytes: the old bytes, then what the heap holds. -/
def realloc (data : Option (List Byte)) (heap : List Byte) (n : ℕ) : List Byte :=
  (data.getD [] ++ heap ++ List.replicate n 0).take n

/-- `loopCycles`: the count the firmware gives from body-4 on, else the one that was stable. -/
def loopCycles (d : Device) : Option (Device × Byte) :=
  if 0x0004 ≤ d.idev.version &&& 0x00FF then do
    let (d, known) ← checks d
    some (d, if known then d.idev.cycles else LOOP_CYCLES)
  else some (d, LOOP_CYCLES)

/-- The channels, and the delays if the carrier frequency is adjustable. -/
def channelBytes (d : Device) : Option (Device × List Byte) :=
  if hasBody d.idev.version then do
    let channels := d.idev.channels
    let (d, cycles) ← loopCycles checks d
    let (sevens, fours) := computeCarrierDelays fl d.idev.carrier cycles
    some (d, [channels, sevens, fours])
  else some (d, [d.idev.channels])

/-- A request that is ready for the wire: the control packet, the number of data bytes in it
(`sent`), and the request as it is now. -/
structure Prepared where
  msg : List Byte
  sent : ℤ
  request : DataPacket
deriving DecidableEq, Repr

def controlPacket (code : Byte) (arguments : List Byte) : List Byte :=
  [CTL_START, CTL_START, CTL_TODEV, code] ++ arguments

/-- What follows the length argument. -/
def streamTail (d : Device) (code : Byte) : Option (Device × List Byte) :=
  if hasChannels code then channelBytes fl checks d else some (d, [])

/-- As of version 3, `IG_DEV_SEND` and `IG_DEV_PINBURST` require a length argument. -/
def streamArguments (d : Device) (code : Byte) (request : DataPacket) :
    Option (Device × Prepared) := do
  let heap := d.usb.outcome.heap
  let (d, tail) ← streamTail fl checks d request.code
  if request.code = IG_DEV_RESEND then
    -- the device firmware overwrites the size, the channels and delays follow it
    let data := realloc request.data heap MAX_PACKET_SIZE
    let data := data.take MIN_CTL_LENGTH ++ 0xFF :: tail ++ data.drop (MIN_CTL_LENGTH + 1 + tail.length)
    some (d, ⟨controlPacket code [], 0, { request with data := some data, dataLen := MAX_PACKET_SIZE }⟩)
  else
    some (d, ⟨controlPacket code (BitVec.ofInt 8 request.dataLen :: tail), 0, request⟩)

/-- Clear the features if any page is written since this could change the returned timings. -/
def forgetFeatures (d : Device) (code : Byte) : Device :=
  if code = IG_DEV_WRITEBLOCK then d.setFeatures UNKNOWN_FEATURES else d

/-- The control packet.  `IG_DEV_SEND` and `IG_DEV_PINBURST` do not get their data packed into
it, and of the others no more than 4 bytes. -/
def packRequest (d : Device) (code : Byte) (request : DataPacket) : Option (Device × Prepared) :=
  if hasDataStream request.code then
    if 3 ≤ d.idev.version then streamArguments fl checks d code request
    else some (d, ⟨controlPacket code [], 0, request⟩)
  else if request.code = IG_DEV_SETPINCONFIG then some (d, ⟨controlPacket code [], 0, request⟩)
  else
    let sent := min request.dataLen 4
    (readBytes request.data sent).map (fun bytes => (d, ⟨controlPacket code bytes, sent, request⟩))

/-- Everything up to the first write. -/
def prepare (d : Device) (request : DataPacket) : Option (Device × Prepared) := do
  let request ← replaceLabel request d.idev.version
  let d := forgetFeatures d request.code
  let code := deviceCode request.code d.idev.version
  let request ← checksumBlock code request
  packRequest fl checks d code request

/-- How a transaction ends: its result, the request as it was changed, and the response. -/
structure Answer where
  ok : Bool
  request : DataPacket
  response : Option DataPacket
deriving DecidableEq, Repr

/-- The packet in `idev->response` if it answers the request, with the codes of
`IG_DEV_SETID` un-translated. -/
def acceptResponse (type : PacketType) (request pos : DataPacket) : Option DataPacket :=
  let pos := if request.code = IG_DEV_SETID ∧ pos.code = IG_DEV_WRITEBLOCK
    then { pos with code := IG_DEV_SETID } else pos
  if pos.code = IG_DEV_INVALID_ARG then none
  else if pos.code ≠ request.code then none
  else if ¬payloadMatch (BitVec.ofNat 8 type.inData) (BitVec.ofInt 8 pos.dataLen) then none
  else some pos

/-- The data packets behind the control packet. -/
def dataStream (d : Device) (p : Prepared) (failAt : Option ℕ) :
    Option (Bool × List (List Byte)) :=
  if p.sent < p.request.dataLen then do
    let bytes ← readBytes p.request.data p.request.dataLen
    some (sendData d.idev.maxPacketSize (bytes.drop p.sent.toNat)
      (d.idev.version < 3 && p.request.code == IG_DEV_SEND) failAt)
  else some (true, [])

/-- The answer for what the wait ended with. -/
def ackAnswer (type : PacketType) (request : DataPacket) : Ack → Answer
  | .readError | .timeout => ⟨false, request, none⟩
  | .reply pos =>
      match acceptResponse type request pos with
      | none => ⟨false, request, none⟩
      | some pos => ⟨true, request, some pos⟩

/-- The end of a transaction, where `sent` says that all the data is written. -/
def closeTransaction (type : PacketType) (request : DataPacket) (sent : Bool) (ack : Ack) : Answer :=
  if ¬sent then ⟨false, request, none⟩
  -- if no ack is necessary then return success now
  else if ¬type.ack then ⟨true, request, none⟩
  else ackAnswer type request ack

/-- The writes and the wait for the answer. -/
def transmit (type : PacketType) (d : Device) (p : Prepared) : Option (Device × Answer) :=
  let outcome := d.usb.outcome
  if outcome.controlSent then
    (dataStream d p outcome.failAt).map (fun (sent, packets) =>
      (d.wrote (p.msg :: packets), closeTransaction type p.request sent outcome.ack))
  else some (d.wrote [], ⟨false, p.request, none⟩)

/-- `deviceTransaction` behind the split of the pin configurations. -/
def transaction (d : Device) (request : DataPacket) (nullResponse : Bool) :
    Option (Device × Answer) :=
  match checkIncomingProtocol (some d.idev.version) request nullResponse with
  | none => some (d, ⟨false, request, none⟩)
  | some type => do
      let (d, p) ← prepare fl checks d request
      transmit type d p

/-- A request without data, as `DATA_PACKET_INIT` leaves it. -/
def bareRequest (code : Byte) : DataPacket := ⟨code, 0, none⟩

/-- Where the answer to the request for the features is stored. -/
def storeFeatures (d : Device) (response : DataPacket) : Option Device :=
  if 1 < response.dataLen then
    (readBytes response.data 2).map (fun bytes =>
      (d.setFeatures (bytes.getD 0 0)).setCycles (bytes.getD 1 0))
  else (readBytes response.data 1).map (fun bytes => d.setFeatures (bytes.getD 0 0))

/-- The request for the features. -/
def readFeatures (d : Device) : Option Device := do
  let (d, a) ← transaction fl (fun d => some (d, false)) d (bareRequest IG_DEV_GETFEATURES) false
  if a.ok then a.response.bind (storeFeatures d) else some d

/-- Try and get the features if we haven't already. -/
def knownFeatures (d : Device) : Option Device :=
  if d.idev.features = UNKNOWN_FEATURES then readFeatures fl d else some d

def checkFeatures (d : Device) (targetSet : Byte) : Option (Device × Bool) :=
  if hasBody d.idev.version then do
    let d ← knownFeatures fl d
    if d.idev.features = UNKNOWN_FEATURES then some (d, false)
    else some (d, targetSet == UNKNOWN_FEATURES || d.idev.features == targetSet)
  else some (d, false)

def packetIsError : Option DataPacket → Bool
  | none => true
  | some packet => packet.code == IG_DEV_ERROR

/-- `deviceTransaction` for a request that is not split. -/
def wholeTransaction (d : Device) (request : DataPacket) (nullResponse : Bool) :
    Option (Device × Answer) :=
  transaction fl (fun d => checkFeatures fl d UNKNOWN_FEATURES) d request nullResponse

/-- Both halves of setting the pin configuration.  On the way out the request has its data back,
but not its code and length. -/
def oldSetPinConfig (d : Device) (request : DataPacket) : Option (Device × Answer) := do
  let data := request.data
  let (d, a) ← wholeTransaction fl d ⟨IG_DEV_SETCONFIG0, 4, data⟩ false
  if !a.ok || packetIsError a.response then
    some (d, ⟨false, { a.request with data := data }, none⟩)
  else
    let (d, a) ← wholeTransaction fl d ⟨IG_DEV_SETCONFIG0 + 2, 4, data.map (·.drop 4)⟩ false
    some (d, ⟨a.ok && !packetIsError a.response, { a.request with data := data }, a.response⟩)

/-- Both halves of reading the pin configuration.  The request keeps the code of the second. -/
def oldGetPinConfig (d : Device) (request : DataPacket) : Option (Device × Answer) := do
  let (d, a) ← wholeTransaction fl d { request with code := IG_DEV_GETCONFIG0 } false
  if !a.ok || packetIsError a.response then some (d, ⟨false, a.request, none⟩)
  else
    let low ← a.response.bind (fun response => readBytes response.data 4)
    let (d, a) ← wholeTransaction fl d { a.request with code := IG_DEV_GETCONFIG0 + 2 } false
    if !a.ok || packetIsError a.response then some (d, ⟨false, a.request, none⟩)
    else
      let high ← a.response.bind (fun response => readBytes response.data 4)
      some (d, ⟨true, a.request, some ⟨IG_DEV_GETPINCONFIG, 8, some (low ++ high)⟩⟩)

/-- For old devices setting pin configs becomes two requests. -/
def oldPinConfig (d : Device) (request : DataPacket) : Option (Device × Answer) :=
  if request.code = IG_DEV_SETPINCONFIG then oldSetPinConfig fl d request
  else oldGetPinConfig fl d request

/-- The requests that old devices split. -/
def splitsRequest (version : Version) (code : Byte) : Prop :=
  version ≤ 3 ∧ (code = IG_DEV_SETPINCONFIG ∨ code = IG_DEV_GETPINCONFIG)

instance (version : Version) (code : Byte) : Decidable (splitsRequest version code) :=
  inferInstanceAs (Decidable (_ ∧ _))

def deviceTransaction (d : Device) (request : DataPacket) (nullResponse : Bool) :
    Option (Device × Answer) :=
  if splitsRequest d.idev.version request.code then oldPinConfig fl d request
  else wholeTransaction fl d request nullResponse

/-! ### What a transaction leaves alone -/

/-- Only what is known about the features may have changed. -/
def Device.Keeps (d d' : Device) : Prop :=
  ∃ features cycles, d'.idev = { d.idev with features := features, cycles := cycles }

namespace Device.Keeps

theorem refl (d : Device) : d.Keeps d := ⟨_, _, rfl⟩

theorem trans {d₁ d₂ d₃ : Device} (h : d₁.Keeps d₂) (h' : d₂.Keeps d₃) : d₁.Keeps d₃ := by
  obtain ⟨f, c, h⟩ := h
  obtain ⟨f', c', h'⟩ := h'
  exact ⟨f', c', by rw [h', h]⟩

theorem wrote (d : Device) (packets : List (List Byte)) : d.Keeps (d.wrote packets) := ⟨_, _, rfl⟩

theorem setFeatures (d : Device) (b : Byte) : d.Keeps (d.setFeatures b) := ⟨b, d.idev.cycles, rfl⟩

theorem setCycles (d : Device) (b : Byte) : d.Keeps (d.setCycles b) := ⟨d.idev.features, b, rfl⟩

theorem version {d d' : Device} (h : d.Keeps d') : d'.idev.version = d.idev.version := by
  obtain ⟨f, c, h⟩ := h
  rw [h]

theorem receiverCount {d d' : Device} (h : d.Keeps d') :
    d'.idev.receiverCount = d.idev.receiverCount := by
  obtain ⟨f, c, h⟩ := h
  rw [h]

end Device.Keeps

variable {fl checks}

theorem loopCycles_keeps (hc : ∀ d d' b, checks d = some (d', b) → d.Keeps d') {d d' : Device}
    {b : Byte} (h : loopCycles checks d = some (d', b)) : d.Keeps d' := by
  unfold loopCycles at h
  split_ifs at h
  · simp only [Option.bind_eq_bind, Option.bind_eq_some_iff, Option.some.injEq, Prod.mk.injEq,
      Prod.exists] at h
    obtain ⟨d₁, known, hk, rfl, -⟩ := h
    exact hc _ _ _ hk
  · obtain ⟨rfl, -⟩ := Prod.mk.inj (Option.some.inj h)
    exact .refl d

theorem channelBytes_keeps (hc : ∀ d d' b, checks d = some (d', b) → d.Keeps d') {d d' : Device}
    {bytes : List Byte} (h : channelBytes fl checks d = some (d', bytes)) : d.Keeps d' := by
  unfold channelBytes at h
  split_ifs at h
  · simp only [Option.bind_eq_bind, Option.bind_eq_some_iff, Option.some.injEq, Prod.mk.injEq,
      Prod.exists] at h
    obtain ⟨d₁, cycles, hl, rfl, -⟩ := h
    exact loopCycles_keeps hc hl
  · obtain ⟨rfl, -⟩ := Prod.mk.inj (Option.some.inj h)
    exact .refl d

theorem streamTail_keeps (hc : ∀ d d' b, checks d = some (d', b) → d.Keeps d') {d d' : Device}
    {code : Byte} {tail : List Byte} (h : streamTail fl checks d code = some (d', tail)) :
    d.Keeps d' := by
  unfold streamTail at h
  split_ifs at h
  · exact channelBytes_keeps hc h
  · obtain ⟨rfl, -⟩ := Prod.mk.inj (Option.some.inj h)
    exact .refl d

theorem streamArguments_spec (hc : ∀ d d' b, checks d = some (d', b) → d.Keeps d') {d d' : Device}
    {code : Byte} {request : DataPacket} {p : Prepared}
    (h : streamArguments fl checks d code request = some (d', p)) :
    d.Keeps d' ∧ p.request.code = request.code := by
  unfold streamArguments at h
  simp only [Option.bind_eq_bind, Option.bind_eq_some_iff, Prod.exists] at h
  obtain ⟨d₁, tail, ht, h⟩ := h
  split_ifs at h <;>
  · obtain ⟨rfl, rfl⟩ := Prod.mk.inj (Option.some.inj h)
    exact ⟨streamTail_keeps hc ht, rfl⟩

theorem replaceLabel_code {request request' : DataPacket} {version : Version}
    (h : replaceLabel request version = some request') : request'.code = request.code := by
  unfold replaceLabel at h
  split_ifs at h
  · obtain ⟨label, -, rfl⟩ := Option.map_eq_some_iff.mp h
    rfl
  · obtain rfl := Option.some.inj h
    rfl

theorem checksumBlock_code {code : Byte} {request request' : DataPacket}
    (h : checksumBlock code request = some request') : request'.code = request.code := by
  unfold checksumBlock at h
  split_ifs at h
  · obtain ⟨block, -, rfl⟩ := Option.map_eq_some_iff.mp h
    rfl
  · obtain rfl := Option.some.inj h
    rfl

theorem forgetFeatures_keeps (d : Device) (code : Byte) : d.Keeps (forgetFeatures d code) := by
  unfold forgetFeatures
  split_ifs
  · exact .setFeatures d _
  · exact .refl d

theorem packRequest_spec (hc : ∀ d d' b, checks d = some (d', b) → d.Keeps d') {d d' : Device}
    {code : Byte} {request : DataPacket} {p : Prepared}
    (h : packRequest fl checks d code request = some (d', p)) :
    d.Keeps d' ∧ p.request.code = request.code := by
  unfold packRequest at h
  split_ifs at h
  · exact streamArguments_spec hc h
  · obtain ⟨rfl, rfl⟩ := Prod.mk.inj (Option.some.inj h)
    exact ⟨.refl d, rfl⟩
  · obtain ⟨rfl, rfl⟩ := Prod.mk.inj (Option.some.inj h)
    exact ⟨.refl d, rfl⟩
  · obtain ⟨bytes, -, h⟩ := Option.map_eq_some_iff.mp h
    obtain ⟨rfl, rfl⟩ := Prod.mk.inj h
    exact ⟨.refl d, rfl⟩

theorem prepare_spec (hc : ∀ d d' b, checks d = some (d', b) → d.Keeps d') {d d' : Device}
    {request : DataPacket} {p : Prepared} (h : prepare fl checks d request = some (d', p)) :
    d.Keeps d' ∧ p.request.code = request.code := by
  simp only [prepare, Option.bind_eq_bind, Option.bind_eq_some_iff] at h
  obtain ⟨r₁, h₁, r₂, h₂, h⟩ := h
  obtain ⟨hk, hcode⟩ := packRequest_spec hc h
  refine ⟨(forgetFeatures_keeps d _).trans hk, ?_⟩
  rw [hcode, checksumBlock_code h₂, replaceLabel_code h₁]

/-- A response that is accepted carries the code of the request, which is not that of an
invalid argument. -/
theorem acceptResponse_code {type : PacketType} {request pos pos' : DataPacket}
    (h : acceptResponse type request pos = some pos') :
    pos'.code = request.code ∧ pos'.code ≠ IG_DEV_INVALID_ARG := by
  unfold acceptResponse at h
  dsimp only at h
  generalize (if request.code = IG_DEV_SETID ∧ pos.code = IG_DEV_WRITEBLOCK
    then { pos with code := IG_DEV_SETID } else pos) = q at h
  split_ifs at h with h₁ h₂
  obtain rfl := Option.some.inj h
  exact ⟨not_not.mp h₂, h₁⟩

theorem closeTransaction_spec (type : PacketType) (request : DataPacket) (sent : Bool) (ack : Ack) :
    (closeTransaction type request sent ack).request = request ∧
      ∀ response, (closeTransaction type request sent ack).response = some response →
        response.code = request.code := by
  unfold closeTransaction
  split_ifs
  · unfold ackAnswer
    split
    · exact ⟨rfl, nofun⟩
    · exact ⟨rfl, nofun⟩
    · split
      · exact ⟨rfl, nofun⟩
      · next hacc =>
          refine ⟨rfl, fun response hr => ?_⟩
          obtain rfl := Option.some.inj hr
          exact (acceptResponse_code hacc).1
  · exact ⟨rfl, nofun⟩
  · exact ⟨rfl, nofun⟩

theorem transmit_spec {type : PacketType} {d d' : Device} {p : Prepared} {a : Answer}
    (h : transmit type d p = some (d', a)) :
    d.Keeps d' ∧ a.request = p.request ∧
      ∀ response, a.response = some response → response.code = p.request.code := by
  unfold transmit at h
  dsimp only at h
  split_ifs at h
  · obtain ⟨⟨sent, packets⟩, -, h⟩ := Option.map_eq_some_iff.mp h
    obtain ⟨rfl, rfl⟩ := Prod.mk.inj h
    exact ⟨.wrote d _, closeTransaction_spec _ _ _ _⟩
  · obtain ⟨rfl, rfl⟩ := Prod.mk.inj (Option.some.inj h)
    exact ⟨.wrote d _, rfl, nofun⟩

/-- A transaction keeps the device and the code of the request, and its response carries that
code. -/
theorem transaction_spec (hc : ∀ d d' b, checks d = some (d', b) → d.Keeps d') {d d' : Device}
    {request : DataPacket} {nullResponse : Bool} {a : Answer}
    (h : transaction fl checks d request nullResponse = some (d', a)) :
    d.Keeps d' ∧ a.request.code = request.code ∧
      ∀ response, a.response = some response → response.code = request.code := by
  unfold transaction at h
  split at h
  · obtain ⟨rfl, rfl⟩ := Prod.mk.inj (Option.some.inj h)
    exact ⟨.refl d, rfl, nofun⟩
  · simp only [Option.bind_eq_bind, Option.bind_eq_some_iff, Prod.exists] at h
    obtain ⟨d₁, p, hp, ht⟩ := h
    obtain ⟨hk₁, hcode⟩ := prepare_spec hc hp
    obtain ⟨hk₂, hreq, hresp⟩ := transmit_spec ht
    refine ⟨hk₁.trans hk₂, by rw [hreq, hcode], fun response hr => ?_⟩
    rw [hresp response hr, hcode]

theorem storeFeatures_keeps {d d' : Device} {response : DataPacket}
    (h : storeFeatures d response = some d') : d.Keeps d' := by
  unfold storeFeatures at h
  split_ifs at h
  · obtain ⟨bytes, -, rfl⟩ := Option.map_eq_some_iff.mp h
    exact (Device.Keeps.setFeatures d _).trans (.setCycles _ _)
  · obtain ⟨bytes, -, rfl⟩ := Option.map_eq_some_iff.mp h
    exact .setFeatures d _

theorem readFeatures_keeps {d d' : Device} (h : readFeatures fl d = some d') : d.Keeps d' := by
  simp only [readFeatures, Option.bind_eq_bind, Option.bind_eq_some_iff, Prod.exists] at h
  obtain ⟨d₁, a, ht, h⟩ := h
  have hk := (transaction_spec (fun _ _ _ hc => by cases hc; exact .refl _) ht).1
  split_ifs at h
  · obtain ⟨response, -, hs⟩ := Option.bind_eq_some_iff.mp h
    exact hk.trans (storeFeatures_keeps hs)
  · obtain rfl := Option.some.inj h
    exact hk

theorem checkFeatures_keeps {d d' : Device} {targetSet : Byte} {b : Bool}
    (h : checkFeatures fl d targetSet = some (d', b)) : d.Keeps d' := by
  unfold checkFeatures at h
  split_ifs at h
  · simp only [Option.bind_eq_bind, Option.bind_eq_some_iff] at h
    obtain ⟨d₁, hd, h⟩ := h
    have hk : d.Keeps d₁ := by
      unfold knownFeatures at hd
      split_ifs at hd
      · exact readFeatures_keeps hd
      · obtain rfl := Option.some.inj hd
        exact .refl d
    split_ifs at h <;>
    · obtain ⟨rfl, -⟩ := Prod.mk.inj (Option.some.inj h)
      exact hk
  · obtain ⟨rfl, -⟩ := Prod.mk.inj (Option.some.inj h)
    exact .refl d

theorem wholeTransaction_spec {d d' : Device} {request : DataPacket} {nullResponse : Bool}
    {a : Answer} (h : wholeTransaction fl d request nullResponse = some (d', a)) :
    d.Keeps d' ∧ a.request.code = request.code ∧
      ∀ response, a.response = some response → response.code = request.code :=
  transaction_spec (fun _ _ _ hc => checkFeatures_keeps hc) h

/-- The halves of a pin configuration keep the device, and the request has the code of the half
that it ends with, of the second half where both succeed. -/
theorem oldSetPinConfig_spec {d d' : Device} {request : DataPacket} {a : Answer}
    (h : oldSetPinConfig fl d request = some (d', a)) :
    d.Keeps d' ∧ (a.ok = true → a.request.code = IG_DEV_SETCONFIG1) ∧
      a.request.code ≠ IG_DEV_RESET := by
  simp only [oldSetPinConfig, Option.bind_eq_bind, Option.bind_eq_some_iff, Prod.exists] at h
  obtain ⟨d₁, a₁, h₁, h⟩ := h
  obtain ⟨hk₁, hcode₁, -⟩ := wholeTransaction_spec h₁
  split_ifs at h
  · obtain ⟨rfl, rfl⟩ := Prod.mk.inj (Option.some.inj h)
    refine ⟨hk₁, nofun, ?_⟩
    simp only [hcode₁]
    decide
  · simp only [Option.bind_eq_some_iff, Prod.exists] at h
    obtain ⟨d₂, a₂, h₂, h⟩ := h
    obtain ⟨hk₂, hcode₂, -⟩ := wholeTransaction_spec h₂
    obtain ⟨rfl, rfl⟩ := Prod.mk.inj (Option.some.inj h)
    refine ⟨hk₁.trans hk₂, fun _ => hcode₂, ?_⟩
    simp only [hcode₂]
    decide

theorem oldGetPinConfig_spec {d d' : Device} {request : DataPacket} {a : Answer}
    (h : oldGetPinConfig fl d request = some (d', a)) :
    d.Keeps d' ∧ (a.ok = true → a.request.code = IG_DEV_GETCONFIG1) ∧
      a.request.code ≠ IG_DEV_RESET := by
  simp only [oldGetPinConfig, Option.bind_eq_bind, Option.bind_eq_some_iff, Prod.exists] at h
  obtain ⟨d₁, a₁, h₁, h⟩ := h
  obtain ⟨hk₁, hcode₁, -⟩ := wholeTransaction_spec h₁
  split_ifs at h
  · obtain ⟨rfl, rfl⟩ := Prod.mk.inj (Option.some.inj h)
    refine ⟨hk₁, nofun, ?_⟩
    rw [hcode₁]
    simp only
    decide
  · simp only [Option.bind_eq_some_iff, Prod.exists] at h
    obtain ⟨low, -, d₂, a₂, h₂, h⟩ := h
    obtain ⟨hk₂, hcode₂, -⟩ := wholeTransaction_spec h₂
    split_ifs at h
    · obtain ⟨rfl, rfl⟩ := Prod.mk.inj (Option.some.inj h)
      refine ⟨hk₁.trans hk₂, nofun, ?_⟩
      rw [hcode₂]
      simp only
      decide
    · simp only [Option.bind_eq_some_iff] at h
      obtain ⟨high, -, h⟩ := h
      obtain ⟨rfl, rfl⟩ := Prod.mk.inj (Option.some.inj h)
      refine ⟨hk₁.trans hk₂, fun _ => hcode₂, ?_⟩
      rw [hcode₂]
      simp only
      decide

theorem deviceTransaction_keeps {d d' : Device} {request : DataPacket} {nullResponse : Bool}
    {a : Answer} (h : deviceTransaction fl d request nullResponse = some (d', a)) : d.Keeps d' := by
  unfold deviceTransaction at h
  split_ifs at h with hs
  · unfold oldPinConfig at h
    split_ifs at h
    · exact (oldSetPinConfig_spec h).1
    · exact (oldGetPinConfig_spec h).1
  · exact (wholeTransaction_spec h).1

end IguanaIR
