import IguanaIR.DeviceTransaction
import IguanaIR.SendFormat

/-! # Requests of clients

`handleClientRequest` of `client-interface.c`, in the order of the source: translate and check
the request, the `switch` over its code, the device transaction for what the `switch` did not
finish, the bookkeeping of receivers, and the translation back.

A `Session` is what a request reads and changes.  The device is `none` on the ctl socket, where
`target->idev` is `NULL`; a request that goes through that pointer is undefined, as is one that
reads past its data. -/

namespace IguanaIR

/-- A file descriptor. -/
abbrev Fd := Fin (2 ^ 31)

instance neZero_fd : NeZero (2 ^ 31) := ⟨by decide⟩

structure Client where
  fd : Fd
  receiving : Byte
  version : Version
deriving DecidableEq, Repr

structure Session where
  server : Server
  device : Option Device
  target : Client
  request : DataPacket
deriving DecidableEq, Repr

variable (fl : ℚ → ℚ)

namespace Session

/-- `bytes` replace the data of the request. -/
def reply (s : Session) (bytes : List Byte) : Session :=
  { s with request := { s.request with data := some bytes, dataLen := bytes.length } }

/-- A string, or no data for `NULL`. -/
def replyString (s : Session) : Option CString → Session
  | none => { s with request := { s.request with data := none, dataLen := 0 } }
  | some string => s.reply string.block

def setCode (s : Session) (code : Byte) : Session :=
  { s with request := { s.request with code := code } }

def setDevice (s : Session) (d : Device) : Session := { s with device := some d }

/-- `bytes` overwrite the start of the data. -/
def overwrite (s : Session) (bytes : List Byte) : Session :=
  { s with request := { s.request with
      data := s.request.data.map (fun data => bytes ++ data.drop bytes.length) } }

end Session

/-- The version of the compression that the device supports. -/
def compressVersion : Option Device → Compress
  | none => .COMPRESS_VER0
  | some d => if 0x08 ≤ d.idev.version &&& 0xFF then .COMPRESS_VER1 else .COMPRESS_VER0

/-! ### The requests that the daemon handles or prepares -/

/-- The client's version is stored and replaced by the server's own. -/
def exchVersions (s : Session) : Option (Session × Bool) := do
  let bytes ← readBytes s.request.data 2
  let version : Version := bytes.getD 1 0 ++ bytes.getD 0 0
  some (({ s with target := { s.target with version := version } }).overwrite
    (halfBytes IG_PROTOCOL_VERSION), true)

/-- The alias that the client asks for, copied behind a null of its own. -/
def ctlDevAddr (s : Session) : Option (Session × Bool) := do
  let bytes ← readBytes s.request.data s.request.dataLen
  let name ← cString (bytes ++ [0])
  let address ← deviceAddress name s.server.devs
  some (s.replyString address, true)

def getFeatures (s : Session) (d : Device) : Option (Session × Bool) := do
  let (d, known) ← checkFeatures fl d UNKNOWN_FEATURES
  some (if known then ((s.setDevice d).reply [d.idev.features], true) else (s.setDevice d, false))

/-- `IG_DEV_RECVON` and `IG_DEV_RAWRECVON`: nothing to do while the receiver is on. -/
def recvOn (s : Session) (d : Device) : Session × Bool :=
  (s.setCode IG_DEV_RECVON, decide (0 < d.idev.receiverCount))

/-- Nothing is left to do while there are other receivers. -/
def recvOff (s : Session) (d : Device) : Session × Bool :=
  let s := { s with target := { s.target with receiving := 0 } }
  if 0 < d.idev.receiverCount then
    let d := d.setReceiverCount (d.idev.receiverCount - 1)
    (s.setDevice d, decide (0 < d.idev.receiverCount))
  else (s, false)

def getChannels (s : Session) (d : Device) : Option (Session × Bool) := do
  let (d, slot) ← checkFeatures fl d IG_SLOT_DEV
  some ((s.setDevice d).reply [if slot then d.idev.channels >>> 2 else d.idev.channels >>> 4], true)

def setChannels (s : Session) (d : Device) : Option (Session × Bool) := do
  let (d, slot) ← checkFeatures fl d IG_SLOT_DEV
  let bytes ← readBytes s.request.data 1
  let channels := if slot then bytes.getD 0 0 <<< 2 else bytes.getD 0 0 <<< 4
  some (s.setDevice (d.setChannels channels), true)

def getCarrier (s : Session) (d : Device) : Session × Bool :=
  (s.reply (htonlBytes d.idev.carrier.word), true)

def setCarrier (s : Session) (d : Device) : Option (Session × Bool) := do
  let bytes ← readBytes s.request.data 4
  let carrier := clampCarrier (bytes.getD 0 0 ++ bytes.getD 1 0 ++ bytes.getD 2 0 ++ bytes.getD 3 0)
  some ((s.setDevice (d.setCarrier carrier)).overwrite (htonlBytes carrier.word), true)

/-- `dataLen / sizeof(uint32_t)` words; a length that is negative has none. -/
def sendCode (request : DataPacket) : Option (List (BitVec 32)) :=
  let length := request.dataLen / 4
  if length ≤ 0 then some [] else (readBytes request.data (4 * length)).map bytesWords

/-- The bytes that the device will understand. -/
def encodedSignal (s : Session) (d : Device) : Option (List Byte) :=
  (sendCode s.request).map (fun words =>
    pulsesToIguanaSend fl d.idev.carrier.hz words (compressVersion (some d)))

/-- The signal is encoded here and sent by the device transaction. -/
def sendRequest (s : Session) (d : Device) : Option (Session × Bool) := do
  let codes ← encodedSignal fl s d
  some ({ s with request := { s.request with
      data := if codes = [] then none else some codes, dataLen := codes.length } }, false)

/-- Just the length of the encoded signal, as a `uint16_t`. -/
def sendSize (s : Session) (d : Device) : Option (Session × Bool) := do
  let codes ← encodedSignal fl s d
  some (s.reply (halfBytes (BitVec.ofNat 16 codes.length)), true)

/-- The cases of the `switch` that go through `target->idev`. -/
def deviceCases (s : Session) (d : Device) : Option (Session × Bool) :=
  let code := s.request.code
  if code = IG_DEV_GETFEATURES then getFeatures fl s d
  else if code = IG_DEV_RECVON ∨ code = IG_DEV_RAWRECVON then some (recvOn s d)
  else if code = IG_DEV_RECVOFF then some (recvOff s d)
  else if code = IG_DEV_GETCHANNELS then getChannels fl s d
  else if code = IG_DEV_SETCHANNELS then setChannels fl s d
  else if code = IG_DEV_GETCARRIER then some (getCarrier s d)
  else if code = IG_DEV_SETCARRIER then setCarrier s d
  else if code = IG_DEV_GETLOCATION then
    some (s.reply [d.idev.location.1, d.idev.location.2], true)
  else if code = IG_DEV_SEND then sendRequest fl s d
  else if code = IG_DEV_SENDSIZE then sendSize fl s d
  else if code = IG_DEV_LISTALIASES then
    some (s.replyString (some (aliasSummary d.idev.names)), true)
  else some (s.replyString (some d.idev.names.addrStr), true)

/-- Does the `switch` go through `target->idev`? -/
def needsDevice (code : Byte) : Bool :=
  [IG_DEV_GETFEATURES, IG_DEV_RECVON, IG_DEV_RAWRECVON, IG_DEV_RECVOFF, IG_DEV_GETCHANNELS,
    IG_DEV_SETCHANNELS, IG_DEV_GETCARRIER, IG_DEV_SETCARRIER, IG_DEV_GETLOCATION, IG_DEV_SEND,
    IG_DEV_SENDSIZE, IG_DEV_LISTALIASES, IG_DEV_GETADDRESS].contains code

/-- The `switch`, whose result says whether the request is handled within the daemon. -/
def switchRequest (s : Session) : Option (Session × Bool) :=
  let code := s.request.code
  if needsDevice code then s.device.bind (deviceCases fl s)
  else if code = IG_EXCH_VERSIONS then exchVersions s
  else if code = IG_CTL_LISTDEVS then some (s.replyString (deviceSummary s.server), true)
  else if code = IG_CTL_DEVADDR then ctlDevAddr s
  else if code = IG_DEV_IDSOFF then
    some ({ s with server := { s.server with readLabels := false } }, true)
  else if code = IG_DEV_IDSON then
    some ({ s with server := { s.server with readLabels := true } }, true)
  else if code = IG_DEV_IDSTATE then
    some (s.reply [if s.server.readLabels then 1 else 0], true)
  else some (s, false)

/-! ### The rest of the request -/

/-- The device transaction; a device that does not answer an `IG_DEV_RESET` is reset over USB,
with the result `resetOk`. -/
def forwardRequest (resetOk : Bool) (s : Session) : Option (Session × Bool × Option DataPacket) :=
  match s.device with
  | none => some (s, false, none)
  | some d => do
      let (d, a) ← deviceTransaction fl d s.request false
      let s := { s with device := some d, request := a.request }
      if a.ok then some (s, true, a.response)
      else some (s, a.request.code == IG_DEV_RESET && resetOk, none)

/-- Need to know which clients to contact on a receive. -/
def countReceiver (s : Session) : Option Session :=
  if s.request.code = IG_DEV_RECVON then
    s.device.map (fun d =>
      { s with
        device := some (d.setReceiverCount (d.idev.receiverCount + 1))
        target := { s.target with receiving := s.request.code } })
  else some s

/-- Pack data for the client. -/
def packResponse (s : Session) : Option DataPacket → Session
  | none => s
  | some response =>
      { s with request := { s.request with data := response.data, dataLen := response.dataLen } }

/-- The bookkeeping for a request that succeeded. -/
def recordSuccess (s : Session) (ok : Bool) (response : Option DataPacket) : Option Session :=
  if ok then (countReceiver s).map (packResponse · response) else some s

/-- The code for the way back to the client. -/
def translateBack (s : Session) (ok : Bool) : Session × Bool :=
  match translateProtocol s.request.code s.target.version true with
  | none => (s, false)
  | some code => (s.setCode code, ok)

/-- What the daemon did not finish goes to the device. -/
def completeRequest (resetOk : Bool) (s : Session) (ok : Bool) :
    Option (Session × Bool × Option DataPacket) :=
  if ok then some (s, true, none) else forwardRequest fl resetOk s

/-- A request whose code is translated and whose size is checked. -/
def acceptedRequest (resetOk : Bool) (s : Session) : Option (Session × Bool) := do
  let (s, ok) ← switchRequest fl s
  let (s, ok, response) ← completeRequest fl resetOk s ok
  let s ← recordSuccess s ok response
  some (translateBack s ok)

def handleClientRequest (resetOk : Bool) (s : Session) : Option (Session × Bool) :=
  match translateProtocol s.request.code s.target.version false with
  | none => some (s, false)
  | some code =>
      match checkIncomingProtocol (s.device.map (·.idev.version)) (s.setCode code).request false with
      | none => some (s.setCode code, false)
      | some _ => acceptedRequest fl resetOk (s.setCode code)

end IguanaIR
