import IguanaIR.DataPacket
import IguanaIR.Transition

/-! # Data from the device

`handleIncomingPackets` of `device-interface.c` as a machine that takes one USB transfer at a
time, and `iguanaDevToPulses`, which turns received bytes into pulses and spaces.

The reader thread is in its outer loop (`waiting`), in the inner loop that completes a packet
whose type demands more data (`collecting`), or gone.  A finished packet is either queued as a
signal from the device or becomes the response that a transaction waits for. -/

namespace IguanaIR

/-! ### Received bytes to pulses -/

/-- The ticks that a byte adds: the maximum pulse length + 1 for an empty one. -/
def receivedTicks (b : Byte) : BitVec 32 :=
  if b &&& LENGTH_MASK = 0 then 1023 + 1 else (b &&& LENGTH_MASK).setWidth 32 + 1

/-- The word for a finished pulse or space. -/
def pulseWord (inSpace : Byte) (ticks : BitVec 32) : BitVec 32 :=
  if inSpace = 0 then ((ticks <<< 6) / 3) ||| IG_PULSE_BIT else (ticks <<< 6) / 3

/-- The loop behind the first byte: `inSpace` is the state and `ticks` the length so far. -/
def devToPulses (inSpace : Byte) (ticks : BitVec 32) : List Byte → List (BitVec 32)
  | [] => [pulseWord inSpace ticks]
  | b :: rest =>
      if b &&& STATE_MASK ≠ inSpace ∨ IG_PULSE_MASK < (b &&& LENGTH_MASK).setWidth 32 + ticks then
        pulseWord inSpace ticks :: devToPulses (b &&& STATE_MASK) (receivedTicks b) rest
      else devToPulses (b &&& STATE_MASK) (ticks + receivedTicks b) rest

/-- The words for `code`.  Without a byte the source reads and writes past its blocks. -/
def iguanaDevToPulses : List Byte → Option (List (BitVec 32))
  | [] => none
  | b :: rest => some (devToPulses (b &&& STATE_MASK) (receivedTicks b) rest)

/-! ### The reader -/

/-- What `interruptRecv` returns. -/
inductive Received where
  | data (buffer : List Byte)
  | timeout
  | pipeError
  | failed
deriving DecidableEq, Repr

/-- Where a packet goes. -/
inductive Routed where
  | recvList (packet : DataPacket)
  | response (packet : DataPacket)
deriving DecidableEq, Repr

inductive Phase where
  /-- `prev` is the length that the last round ended with. -/
  | waiting (prev : ℤ)
  | collecting (type : PacketType) (current : DataPacket)
  | exited
deriving DecidableEq, Repr

structure ReaderSettings where
  maxPacketSize : ℕ
  version : Version
  disconnectOnEPipe : Bool
deriving DecidableEq, Repr

/-- `queueDataPacket`, where a packet without a type counts as one from the device. -/
def queueDataPacket (type : Option PacketType) (current : DataPacket) : Routed :=
  match type with
  | none => .recvList current
  | some type => if type.direction ≠ CTL_TODEV then .recvList current else .response current

/-- Does the buffer start with a control header? -/
def isControl (buffer : List Byte) : Bool :=
  MIN_CTL_LENGTH ≤ buffer.length && buffer.take 3 == [CTL_START, CTL_START, CTL_FROMDEV]

/-- The packet that a transfer starts: what is left of a control packet, or a received signal,
whose last byte is the fill level. -/
def startPacket (version : Version) (buffer : List Byte) : DataPacket :=
  if isControl buffer then
    let code := buffer.getD CODE_OFFSET 0
    ⟨(translateDevice code version false).getD code, buffer.length - MIN_CTL_LENGTH,
      some (buffer.drop MIN_CTL_LENGTH)⟩
  else ⟨IG_DEV_RECV, buffer.length - 1, some (buffer.take (buffer.length - 1))⟩

/-- A transfer that arrives in the outer loop. -/
def outerPacket (version : Version) (buffer : List Byte) : Phase × List Routed :=
  let current := startPacket version buffer
  match findTypeEntry current.code version with
  | none => (.waiting buffer.length, [queueDataPacket none current])
  | some type =>
      if type.inData ≠ NO_PAYLOAD ∧ current.dataLen < type.inData then
        (.collecting type current, [])
      else (.waiting buffer.length, [queueDataPacket (some type) current])

/-- A transfer that arrives in the inner loop; one that does not fit into the block is copied
past its end. -/
def innerPacket (type : PacketType) (current : DataPacket) (buffer : List Byte) :
    Option (Phase × List Routed) :=
  let dataLen := current.dataLen + buffer.length
  if (type.inData : ℤ) < dataLen then none
  else
    let current := { current with dataLen := dataLen, data := current.data.map (· ++ buffer) }
    if dataLen < type.inData then some (.collecting type current, [])
    else some (.waiting buffer.length, [queueDataPacket (some type) current])

/-- One round of either loop.  The outer loop takes a timeout for a length of 0, and so it does a
pipe error that it ignores.  In the inner loop everything but data ends the packet as it is, and
a negative length ends the outer loop with it. -/
def handleIncoming (settings : ReaderSettings) (phase : Phase) (received : Received) :
    Option (Phase × List Routed) :=
  match phase, received with
  | .exited, _ => some (.exited, [])
  | .waiting _, .data buffer =>
      if buffer.isEmpty then some (.waiting 0, []) else some (outerPacket settings.version buffer)
  | .waiting _, .timeout => some (.waiting 0, [])
  | .waiting prev, .pipeError =>
      some (if settings.disconnectOnEPipe ∨ prev < 0 then .exited else .waiting 0, [])
  | .waiting _, .failed => some (.exited, [])
  | .collecting type current, .data buffer =>
      if buffer.isEmpty then some (.waiting 0, [queueDataPacket (some type) current])
      else if settings.maxPacketSize < buffer.length then
        some (.waiting buffer.length, [queueDataPacket (some type) current])
      else innerPacket type current buffer
  | .collecting type current, _ => some (.exited, [queueDataPacket (some type) current])

/-- Where the packets of all the transfers go. -/
def handleIncomingPackets (settings : ReaderSettings) (phase : Phase) (received : List Received) :
    Option (Phase × List Routed) :=
  (Transition.run (handleIncoming settings) phase received).map (fun (phase, routed) =>
    (phase, routed.flatten))

end IguanaIR
