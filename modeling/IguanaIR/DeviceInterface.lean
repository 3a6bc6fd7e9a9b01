import IguanaIR.Server
import IguanaIR.Carrier
import IguanaIR.Chunks

/-! # Devices

The device record and the parts of `device-interface.c` that build what is sent to a device:
`checkIncomingProtocol`, `sendData` and `generateIDBlock`.

A `Device` is the `iguanaDev` and the USB side of it.  What the hardware answers is input: each
transaction takes the next `Outcome`, and a device without one is gone.  The packets written to
the endpoint are collected in `wire`, in order. -/

namespace IguanaIR

structure IguanaDev where
  maxPacketSize : ℕ
  packetSize_pos : 0 < maxPacketSize
  names : Names
  /-- Bus and device index, for `getDeviceLocation`. -/
  location : Byte × Byte
  receiverCount : BitVec 32
  version : Version
  features : Byte
  cycles : Byte
  channels : Byte
  carrier : Carrier
deriving DecidableEq, Repr

/-- What the wait for an answer ends with. -/
inductive Ack where
  | readError
  | timeout
  | reply (pos : DataPacket)
deriving DecidableEq, Repr

/-- What happens during one transaction: whether the control packet is written, which data
packet fails, the answer, and what the heap holds where memory is not initialized. -/
structure Outcome where
  controlSent : Bool
  failAt : Option ℕ
  ack : Ack
  heap : List Byte
deriving DecidableEq, Repr

structure Usb where
  outcomes : List Outcome
  wire : List (List Byte)
deriving DecidableEq, Repr

structure Device where
  idev : IguanaDev
  usb : Usb
deriving DecidableEq, Repr

/-- A packet size, which the endpoint of a device of low speed has. -/
theorem eight_pos : 0 < 8 := by decide

/-- What `startWorker` leaves, with the version that `checkVersion` finds. -/
def startWorker (maxPacketSize : ℕ) (h : 0 < maxPacketSize) (names : Names)
    (location : Byte × Byte) (version : Version) (usb : Usb) : Device where
  idev :=
    { maxPacketSize := maxPacketSize
      packetSize_pos := h
      names := names
      location := location
      receiverCount := 0
      version := version
      features := UNKNOWN_FEATURES
      cycles := 0
      channels := 0
      carrier := defaultCarrier }
  usb := usb

/-- The outcome of the next transaction. -/
def Usb.outcome (usb : Usb) : Outcome := usb.outcomes.headD ⟨false, none, .timeout, []⟩

/-- The endpoint after one transaction that wrote `packets`. -/
def Device.wrote (d : Device) (packets : List (List Byte)) : Device :=
  { d with usb := ⟨d.usb.outcomes.tail, d.usb.wire ++ packets⟩ }

def Device.setFeatures (d : Device) (features : Byte) : Device :=
  { d with idev := { d.idev with features := features } }

def Device.setCycles (d : Device) (cycles : Byte) : Device :=
  { d with idev := { d.idev with cycles := cycles } }

def Device.setReceiverCount (d : Device) (count : BitVec 32) : Device :=
  { d with idev := { d.idev with receiverCount := count } }

def Device.setChannels (d : Device) (channels : Byte) : Device :=
  { d with idev := { d.idev with channels := channels } }

def Device.setCarrier (d : Device) (carrier : Carrier) : Device :=
  { d with idev := { d.idev with carrier := carrier } }

/-! ### Writing data packets -/

/-- The packets that `sendData` writes when all goes well: full ones, then what is left over,
with the terminator if there is one to add. -/
def sendPackets (maxPacketSize : ℕ) (buffer : List Byte) (addTerminator : Bool) :
    List (List Byte) :=
  let last := Chunks.rest maxPacketSize buffer ++ (if addTerminator then [0] else [])
  Chunks.blocks maxPacketSize buffer ++ (if last = [] then [] else [last])

/-- Whether all the packets were written, and those that were. -/
def sendData (maxPacketSize : ℕ) (buffer : List Byte) (addTerminator : Bool)
    (failAt : Option ℕ) : Bool × List (List Byte) :=
  let packets := sendPackets maxPacketSize buffer addTerminator
  match failAt with
  | none => (true, packets)
  | some x => (decide (packets.length ≤ x), packets.take x)

/-! ### Checking a request -/

/-- The type of a request that is accepted.  `version` is `none` for `idev == NULL`. -/
def checkIncomingProtocol (version : Option Version) (request : DataPacket) (nullResponse : Bool) :
    Option PacketType :=
  match findTypeEntry request.code (version.getD IG_PROTOCOL_VERSION) with
  | none => none
  | some type =>
      if type.direction ≠ CTL_TODEV then none
      else if ¬payloadMatch (BitVec.ofNat 8 type.outData) (BitVec.ofInt 8 request.dataLen) then none
      else if type.inData ≠ NO_PAYLOAD ∧ nullResponse then none
      else some type

/-! ### The code that sends the label -/

/-- A byte of the label as it travels over the wire. -/
def labelByte (b : Byte) : Byte := if b = 0x7C ∨ b = 0x0A then 0x5F else b

/-- The two packets that the device sends when it is asked for its id. -/
def idPackets (label : CString) (version : Version) : List Byte :=
  [CTL_START, CTL_START, CTL_FROMDEV, (translateDevice IG_DEV_GETID version true).getD IG_DEV_GETID]
    ++ ((label.take 12).map labelByte ++ List.replicate 12 0).take 12

/-- Instructions that store the bytes from `packetStart` on. -/
def storeInstructions (packetStart : Byte) : List Byte → List Byte
  | [] => []
  | b :: rest => [0x55, packetStart, b] ++ storeInstructions (packetStart + 1) rest

/-- Instructions that store a packet and call the firmware's `write_data`. -/
def sendInstructions (packetStart sendAddress : Byte) (sizeInA : Bool) (packet : List Byte) :
    List Byte :=
  storeInstructions packetStart packet ++
    [if sizeInA then 0x50 else 0x57, 0x08, if sizeInA then 0x57 else 0x50, packetStart,
      0x7C, 0x00, sendAddress]

/-- The instructions for a label, ended by a `ret`. -/
def idInstructions (label : Option CString) (version : Version) : List Byte :=
  let send := if 0x101 ≤ version then sendInstructions 0xF8 0x94 false
    else sendInstructions 0x7C 0x68 true
  match label with
  | none | some [] => [0x7F]
  | some label =>
      let buf := idPackets label version
      send (buf.take 8) ++ send (buf.drop 8) ++ [0x7F]

/-- The block written for `IG_DEV_SETID`: the page, no checksum yet, and the instructions with
halts behind them. -/
def generateIDBlock (label : Option CString) (version : Version) : List Byte :=
  [0x7F, 0, 0, 0] ++ (idInstructions label version ++ List.replicate 64 0x30).take 64

end IguanaIR
