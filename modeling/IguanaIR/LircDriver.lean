import IguanaIR.DeviceCommands

/-! # The LIRC driver

`iguana_send` of `iguanair.c` beside the worker thread of its device.  The driver keeps the
carrier that it set last and asks the daemon for another one only when the remote's differs.  It
then waits for each of its two requests, so other clients come in between.

The driver writes, the daemon handles what is there, and the driver has the answer: what it does
with that is nobody else's, so that the last two are one step.  `foreign` is no part of the
program.  It records what the last `IG_DEV_SETCARRIER` of another client has set since the driver
last set the carrier. -/

namespace IguanaIR

/-! ### `iguana_send` -/

/-- What `iguana_send` waits for.  The packed signals are `none` where there are none to send;
the last argument says that the carrier was set where it had to be. -/
inductive SendPc where
  | idle
  | setCarrier (freq : BitVec 32) (igsignals : Option (List (BitVec 32)))
  | send (freq : BitVec 32) (igsignals : List (BitVec 32)) (carrierSet : Bool)
deriving DecidableEq, Repr

/-- The static variables of the driver; a connection that is closed is `none`. -/
structure LircDriver where
  sendConn : Option Fd
  currentCarrier : BitVec 32
  pc : SendPc
deriving DecidableEq, Repr

/-- The frequencies that the driver asks the daemon for. -/
def carrierInRange (freq : BitVec 32) : Prop := 25000 ≤ freq.toNat ∧ freq.toNat ≤ 100000

instance (freq : BitVec 32) : Decidable (carrierInRange freq) := inferInstanceAs (Decidable (_ ∧ _))

namespace LircDriver

/-- `currentCarrier` starts as -1. -/
def start (sendConn : Fd) : LircDriver := ⟨some sendConn, -1, .idle⟩

/-- Behind the carrier. -/
def sendBuffer (freq : BitVec 32) (carrierSet : Bool) : Option (List (BitVec 32)) → SendPc
  | none => .idle
  | some igsignals => .send freq igsignals carrierSet

/-- Set the carrier frequency if necessary. -/
def iguanaSend (d : LircDriver) (freq : BitVec 32) (igsignals : Option (List (BitVec 32))) :
    Option LircDriver :=
  if d.pc = .idle then
    some { d with pc :=
      if freq ≠ d.currentCarrier ∧ carrierInRange freq then .setCarrier freq igsignals
      else sendBuffer freq true igsignals }
  else none

/-- The packet that the driver has written. -/
def written (d : LircDriver) : Option DataPacket :=
  match d.pc with
  | .idle => none
  | .setCarrier freq _ => some ⟨IG_DEV_SETCARRIER, 4, some (htonlBytes freq)⟩
  | .send _ igsignals _ =>
      let data := igsignals.flatMap wordBytes
      some ⟨IG_DEV_SEND, data.length, if data = [] then none else some data⟩

/-- `daemonTransaction` is over, with this result. -/
def finish (d : LircDriver) (retval : Bool) : LircDriver :=
  match d.pc with
  | .idle => d
  | .setCarrier freq igsignals => { d with
      currentCarrier := if retval then freq else d.currentCarrier
      pc := sendBuffer freq retval igsignals }
  | .send _ _ _ => { d with pc := .idle }

end LircDriver

/-! ### Beside the daemon -/

/-- The frequency that a request sets. -/
def Session.requestedCarrier (s : Session) : Option ℕ :=
  if acceptedCode s = some IG_DEV_SETCARRIER then
    (readBytes s.request.data 4).map (fun bytes =>
      (clampCarrier (bytes.getD 0 0 ++ bytes.getD 1 0 ++ bytes.getD 2 0 ++ bytes.getD 3 0)).hz)
  else none

def requestedCarrier (l : Listener) (me : Client) (input : ClientInput) : Option ℕ :=
  (readDataPacket input.arrival).bind (fun request => (l.session me request).requestedCarrier)

def eventCarrier (l : Listener) : Event → Option ℕ
  | .readable fd input => (l.clients.find? (·.fd = fd)).bind (requestedCarrier l · input)
  | _ => none

structure LircRun where
  listener : Listener
  driver : LircDriver
  foreign : Option ℕ

inductive LircEvent where
  | iguanaSend (freq : BitVec 32) (igsignals : Option (List (BitVec 32)))
  /-- The daemon handles what the driver has written. -/
  | handled (input : ClientInput)
  /-- The driver cannot write. -/
  | unwritten
  /-- Another client, or another thread. -/
  | other (e : Event)

/-- A signal of the driver that the daemon encodes. -/
structure Encoded where
  freq : BitVec 32
  carrierSet : Bool
  /-- What `pulsesToIguanaSend` is given. -/
  carrier : ℕ
deriving DecidableEq, Repr

namespace LircRun

/-- The frequency for a signal of the driver that the daemon is about to encode, and whether the
carrier was set where it had to be. -/
def encodes (r : LircRun) (fd : Fd) (input : ClientInput) : Option (BitVec 32 × Bool) :=
  match r.driver.pc with
  | .send freq _ carrierSet =>
      if (r.listener.clients.find? (·.fd = fd)).bind (clientCode r.listener · input) =
          some IG_DEV_SEND then some (freq, carrierSet)
      else none
  | _ => none

def encoded (r : LircRun) (fd : Fd) (input : ClientInput) : Option Encoded := do
  let (freq, carrierSet) ← r.encodes fd input
  let d ← r.listener.device
  some ⟨freq, carrierSet, d.idev.carrier.hz⟩

/-- The driver has its answer, unless the daemon has closed the connection. -/
def answered (r : LircRun) (input : ClientInput) (l : Listener) (o : Output) : LircRun :=
  let retval := input.written && o.request.any (·.2)
  let setsCarrier := match r.driver.pc with
    | .setCarrier _ _ => retval
    | _ => false
  { listener := l
    driver := { r.driver.finish retval with
      sendConn := if input.written then r.driver.sendConn else none }
    foreign := if setsCarrier then none else r.foreign }

end LircRun

variable (fl : ℚ → ℚ)

/-- Does the event belong to the driver's connection? -/
def LircDriver.owns (d : LircDriver) : Event → Bool
  | .readable fd _ => d.sendConn == some fd
  | _ => false

def lircStep (r : LircRun) : LircEvent → Option (LircRun × Option Encoded)
  | .iguanaSend freq igsignals =>
      (r.driver.iguanaSend freq igsignals).map (fun d => ({ r with driver := d }, none))
  | .handled input => do
      let fd ← r.driver.sendConn
      let packet ← r.driver.written
      if readDataPacket input.arrival = some packet then
        (listenStep fl r.listener (.readable fd input)).map (fun (l, o) =>
          (r.answered input l o, r.encoded fd input))
      else none
  | .unwritten => r.driver.written.map (fun _ => ({ r with driver := r.driver.finish false }, none))
  | .other e =>
      if r.driver.owns e then none
      else (listenStep fl r.listener e).map (fun (l, _) =>
        ({ r with listener := l, foreign := (eventCarrier r.listener e).or r.foreign }, none))

/-- A driver that has just connected to the worker of a device. -/
def LircRun.start (l : Listener) (sendConn : Fd) : LircRun := ⟨l, .start sendConn, none⟩

/-- The signal is encoded for the frequency of its remote, if that is in range and was set where
it had to be. -/
def Encoded.Right (e : Encoded) : Prop :=
  e.carrierSet = true → carrierInRange e.freq → e.carrier = e.freq.toNat

/-- No other client has last set another frequency than that of the signal which the daemon is
about to encode. -/
def SameCarrier (r : LircRun) : LircEvent → Prop
  | .handled input => ∀ fd ∈ r.driver.sendConn, ∀ p ∈ r.encodes fd input, p.2 = true →
      carrierInRange p.1 → ∀ hz ∈ r.foreign, hz = p.1.toNat
  | _ => True

end IguanaIR
