import IguanaIR.ClientInterface
import IguanaIR.Incoming

/-! # The thread that listens to clients

`listenToClients` of `daemon.c` as a machine whose events are a new connection, a client with
something to read, a packet queued by the reader thread, and a byte in the reader's pipe, with
`handleClient`, `releaseClient`, `getID`, `tellReceivers` and `handleReader` of
`client-interface.c`.

The ctl thread and the workers run the same loop, with and without a device.  A descriptor
belongs to one client of the list at a time.  What the kernel answers, and `errno` when a
request fails, come with the events; the alias links in the file system are left out. -/

namespace IguanaIR

structure Listener where
  server : Server
  device : Option Device
  recvList : List DataPacket
  clients : List Client
deriving DecidableEq, Repr

/-- How a readable client is read and answered. -/
structure ClientInput where
  arrival : Arrival
  errno : ℕ
  resetOk : Bool
  written : Bool
deriving Repr

inductive Event where
  | connected (fd : Fd)
  | readable (fd : Fd) (input : ClientInput)
  | queued (packet : DataPacket)
  | fromReader (written : Fd → Bool)
  | otherThreads (server : Server)

/-- What shows on the outside: the request that was handled, in the daemon's own protocol and
with its success, and the frames written to the clients. -/
structure Output where
  request : Option (Byte × Bool)
  frames : List (Fd × Frame)
deriving DecidableEq, Repr

variable (fl : ℚ → ℚ)

/-! ### Clients -/

/-- The list with `me` as it is now. -/
def updateClient (clients : List Client) (me : Client) : List Client :=
  clients.map (fun c => if c.fd = me.fd then me else c)

def removeClient (clients : List Client) (fd : Fd) : List Client :=
  clients.filter (fun c => c.fd ≠ fd)

/-- One receiver less; the last one turns the receiver off. -/
def dropReceiver (d : Device) : Option Device :=
  let d := d.setReceiverCount (d.idev.receiverCount - 1)
  if d.idev.receiverCount = 0 then
    (deviceTransaction fl d (bareRequest IG_DEV_RECVOFF) true).map (·.1)
  else some d

def releaseClient (l : Listener) (me : Client) : Option Listener :=
  if me.receiving ≠ 0 then
    (l.device.bind (dropReceiver fl)).map (fun d =>
      { l with device := some d, clients := removeClient l.clients me.fd })
  else some { l with clients := removeClient l.clients me.fd }

/-- `strncpy`: up to `n` bytes, ended by a null. -/
def strncpy : ℕ → List Byte → Option CString
  | 0, _ => some []
  | _ + 1, [] => none
  | n + 1, b :: rest => if b = 0 then some [] else (strncpy n rest).map (b :: ·)

def setAliases (d : Device) (locAlias userAlias : Option CString) : Device :=
  { d with idev := { d.idev with
      names := { d.idev.names with locAlias := locAlias, userAlias := userAlias } } }

/-- A dummy call, because in early body firmware the first call fails. -/
def dummyGetID (d : Device) : Option Device :=
  if d.idev.version &&& 0xFF00 ≠ 0 ∧ d.idev.version &&& 0x00FF < 0x05 then
    (deviceTransaction fl d (bareRequest IG_DEV_GETID) false).map (·.1)
  else some d

/-- The alias in the response to `IG_DEV_GETID`. -/
def storeLabel (d : Device) (response : DataPacket) : Option Device :=
  (response.data.bind (strncpy 12)).map (fun label =>
    setAliases d d.idev.names.locAlias (some label))

/-- The user's alias, read from a device that has a body. -/
def readLabel (d : Device) : Option Device := do
  let d ← dummyGetID fl d
  let d := setAliases d d.idev.names.locAlias none
  let (d, a) ← deviceTransaction fl d (bareRequest IG_DEV_GETID) false
  if a.ok then a.response.bind (storeLabel d) else some d

/-- The location alias, and the label unless labels are not to be read or there is none. -/
def getID (server : Server) (d : Device) : Option Device :=
  let loc := decimal d.idev.location.1.toNat ++ ascii "-" ++ decimal d.idev.location.2.toNat
  let d := setAliases d (some loc) d.idev.names.userAlias
  if !server.readLabels || d.idev.version == 0x00FF || d.idev.version &&& 0x00FF == 0 then some d
  else readLabel fl d

/-- The reply to a request: an error carries `-errno` in its length. -/
def replyPacket (ok : Bool) (request : DataPacket) (errno : ℕ) : DataPacket :=
  if ok then request else { request with code := IG_DEV_ERROR, dataLen := -errno }

/-- Behind the write of the reply.  A client that cannot be written to is released, and yet
asked for its device after an `IG_DEV_SETID`. -/
def afterReply (l : Listener) (me : Client) (written : Bool) (code : Byte) : Option Listener :=
  if written then
    if code = IG_DEV_SETID then
      (l.device.bind (getID fl l.server)).map (fun d => { l with device := some d })
    else some l
  else if code = IG_DEV_SETID then none
  else releaseClient fl l me

/-- What the request of a client reads. -/
def Listener.session (l : Listener) (me : Client) (request : DataPacket) : Session :=
  ⟨l.server, l.device, me, request⟩

/-- What the request of a client leaves behind. -/
def Listener.behind (l : Listener) (s : Session) : Listener :=
  { l with server := s.server, device := s.device, clients := updateClient l.clients s.target }

def handleClient (l : Listener) (me : Client) (input : ClientInput) :
    Option (Listener × Output) :=
  match readDataPacket input.arrival with
  | none => (releaseClient fl l me).map (·, ⟨none, []⟩)
  | some request => do
      let (s, ok) ← handleClientRequest fl input.resetOk (l.session me request)
      let reply := replyPacket ok s.request input.errno
      let frame ← reply.frame
      let l ← afterReply fl (l.behind s) s.target input.written reply.code
      some (l, ⟨(translateProtocol request.code me.version false).map (·, ok),
        if input.written then [(me.fd, frame)] else []⟩)

/-! ### Received signals -/

/-- `tellReceivers` for one client: whether it stays on the list, and its frame. -/
def tellReceivers (packet : DataPacket) (translated : Bool) (written : Fd → Bool) (me : Client) :
    Option (Bool × List (Fd × Frame)) :=
  if (me.receiving = IG_DEV_RECVON ∧ translated) ∨
      (me.receiving = IG_DEV_RAWRECVON ∧ ¬translated) then
    match translateProtocol packet.code me.version true with
    | none => some (false, [])
    | some code =>
        ({ packet with code := code }).frame.map (fun frame =>
          (true, if written me.fd then [(me.fd, frame)] else []))
  else some (true, [])

/-- `forEach` over the clients: those that stay, and the frames in order. -/
def forEach (action : Client → Option (Bool × List (Fd × Frame))) :
    List Client → Option (List Client × List (Fd × Frame))
  | [] => some ([], [])
  | me :: rest => do
      let (stays, frames) ← action me
      let (rest, more) ← forEach action rest
      some (if stays then me :: rest else rest, frames ++ more)

/-- The packet with pulses in place of the bytes that the device sent. -/
def pulsePacket (packet : DataPacket) (words : List (BitVec 32)) : DataPacket :=
  let pulses := words.flatMap wordBytes
  { packet with data := some pulses, dataLen := pulses.length }

/-- A received signal goes to the raw receivers, then, as pulses, to the others. -/
def tellSignal (packet : DataPacket) (written : Fd → Bool) (clients : List Client) :
    Option (List Client × List (Fd × Frame)) := do
  let (clients, raw) ← forEach (tellReceivers packet false written) clients
  let bytes ← readBytes packet.data packet.dataLen
  let words ← iguanaDevToPulses bytes
  let (clients, translated) ← forEach
    (tellReceivers (pulsePacket packet words) true written) clients
  some (clients, raw ++ translated)

/-- Who hears of a packet: nobody, of a code that is not expected. -/
def tellPacket (packet : DataPacket) (written : Fd → Bool) (clients : List Client) :
    Option (List Client × List (Fd × Frame)) :=
  if packet.code = IG_DEV_RECV then tellSignal packet written clients
  else if packet.code = IG_DEV_OVERRECV then forEach (tellReceivers packet false written) clients
  else some (clients, [])

/-- The first packet of the queue. -/
def handleReader (l : Listener) (written : Fd → Bool) : Option (Listener × Output) :=
  match l.recvList with
  | [] => none
  | packet :: recvList =>
      (tellPacket packet written l.clients).map (fun (clients, frames) =>
        ({ l with recvList := recvList, clients := clients }, ⟨none, frames⟩))

/-! ### The loop -/

def clientConnected (l : Listener) (fd : Fd) : Option Listener :=
  if fd ∈ l.clients.map (·.fd) then none
  else some { l with clients := l.clients ++ [⟨fd, 0, 0⟩] }

/-- One event; it is undefined where the source is, and for an event that cannot be. -/
def listenStep (l : Listener) : Event → Option (Listener × Output)
  | .connected fd => (clientConnected l fd).map (·, ⟨none, []⟩)
  | .readable fd input =>
      (l.clients.find? (·.fd = fd)).bind (fun me => handleClient fl l me input)
  | .queued packet => some ({ l with recvList := l.recvList ++ [packet] }, ⟨none, []⟩)
  | .fromReader written => handleReader l written
  | .otherThreads server => some ({ l with server := server }, ⟨none, []⟩)

end IguanaIR
