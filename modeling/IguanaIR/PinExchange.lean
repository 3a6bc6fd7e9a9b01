import IguanaIR.BlockExchange
import IguanaIR.Firmware.PinRegister

/-! # Pins through the daemon

What igclient sets and gets as one number: the two bytes of the request, the control packet of the
daemon, the ports of the microcontroller, and the way back.

However the commands of any clients follow each other, and whatever else the daemon and the
firmware do between them, the pins are a register.  A command without a reply may have been carried
out. -/

namespace IguanaIR

open Firmware Relation

variable {fl : ℚ → ℚ}

/-! ### Requests that fit the control packet -/

/-- The microcontroller finds one packet. -/
def Firmware.Mcu.finds (m : Mcu) (packet : List Byte) : Mcu :=
  { m with out := [packet], sent := [] }

/-- The codes that the daemon or the transaction treats in a way of their own. -/
def specialCodes : List Byte :=
  [IG_DEV_GETFEATURES, IG_DEV_RECVON, IG_DEV_RAWRECVON, IG_DEV_RECVOFF, IG_DEV_GETCHANNELS,
    IG_DEV_SETCHANNELS, IG_DEV_GETCARRIER, IG_DEV_SETCARRIER, IG_DEV_GETLOCATION, IG_DEV_SEND,
    IG_DEV_SENDSIZE, IG_DEV_LISTALIASES, IG_DEV_GETADDRESS, IG_EXCH_VERSIONS, IG_CTL_LISTDEVS,
    IG_CTL_DEVADDR, IG_DEV_IDSOFF, IG_DEV_IDSON, IG_DEV_IDSTATE, IG_DEV_GETID, IG_DEV_SETID,
    IG_DEV_WRITEBLOCK, IG_DEV_RESEND, IG_DEV_PINBURST, IG_DEV_REPEATER, IG_DEV_SETPINCONFIG,
    IG_DEV_GETPINCONFIG, IG_DEV_RESET, IG_DEV_INVALID_ARG]

/-- A request whose data fits the control packet of a newer device. -/
structure FitsControl (version : Version) (request : DataPacket) (type : PacketType)
    (arguments : List Byte) : Prop where
  newer : 0x200 ≤ version
  plain : request.code ∉ specialCodes
  accepted : checkIncomingProtocol (some version) request false = some type
  ack : type.ack = true
  short : arguments.length ≤ 4
  length : request.dataLen = arguments.length
  data : readBytes request.data request.dataLen = some arguments

namespace FitsControl

variable {version : Version} {request : DataPacket} {type : PacketType} {arguments : List Byte}

theorem code_ne (h : FitsControl version request type arguments) {code : Byte}
    (hcode : code ∈ specialCodes) : request.code ≠ code := by
  rintro rfl
  exact h.plain hcode

theorem deviceCode_eq (h : FitsControl version request type arguments) :
    deviceCode request.code version = request.code := by
  rw [deviceCode, translateDevice_newer h.newer, if_neg (h.code_ne (by decide)),
    if_neg (h.code_ne (by decide))]
  rfl

theorem not_hasDataStream (h : FitsControl version request type arguments) :
    ¬hasDataStream request.code := by
  rintro (hcode | hcode | hcode | hcode)
  · exact h.code_ne (by decide) hcode
  · exact h.code_ne (by decide) hcode
  · exact h.code_ne (by decide) hcode
  · exact h.code_ne (by decide) hcode

theorem prepare_eq {checks : Device → Option (Device × Bool)} {d : Device}
    (h : FitsControl d.idev.version request type arguments) :
    prepare fl checks d request =
      some (d, ⟨controlPacket request.code arguments, arguments.length, request⟩) := by
  have hblock : request.code ≠ IG_DEV_WRITEBLOCK := h.code_ne (by decide)
  have hsent : min request.dataLen 4 = arguments.length := by
    have hshort := h.short
    rw [h.length]
    omega
  have hdata : readBytes request.data (arguments.length : ℤ) = some arguments := by
    rw [← h.length]
    exact h.data
  simp only [prepare, replaceLabel, if_neg (h.code_ne (show IG_DEV_SETID ∈ specialCodes by decide)),
    forgetFeatures, if_neg hblock, h.deviceCode_eq, checksumBlock, Option.bind_eq_bind,
    Option.bind_some]
  rw [if_neg (fun hc => hblock hc.1)]
  simp only [Option.bind_some, packRequest, if_neg h.not_hasDataStream,
    if_neg (h.code_ne (show IG_DEV_SETPINCONFIG ∈ specialCodes by decide)), hsent, hdata,
    Option.map_some]

/-- **The transaction of such a request**: what it writes, and how it ends. -/
theorem deviceTransaction_eq {d : Device} (h : FitsControl d.idev.version request type arguments) :
    ∃ d' a, deviceTransaction fl d request false = some (d', a) ∧ d.Keeps d' ∧
      a.request = request ∧
      if d.usb.outcome.controlSent then a = ackAnswer type request d.usb.outcome.ack ∧
        d'.usb.wire = d.usb.wire ++ [controlPacket request.code arguments]
      else a.ok = false := by
  have hall' : ¬(arguments.length : ℤ) < request.dataLen := by
    rw [h.length]
    omega
  rw [deviceTransaction_whole fl d (h.code_ne (by decide)) (h.code_ne (by decide)),
    wholeTransaction, transaction, h.accepted]
  simp only [h.prepare_eq, Option.bind_eq_bind, Option.bind_some, transmit]
  cases d.usb.outcome.controlSent with
  | true =>
      have hclose : closeTransaction type request true d.usb.outcome.ack =
          ackAnswer type request d.usb.outcome.ack := by
        rw [closeTransaction, if_neg (by decide), if_neg (by rw [h.ack]; decide)]
      simp only [if_true, dataStream, if_neg hall', Option.map_some, hclose]
      exact ⟨_, _, rfl, .wrote _ _, ackAnswer_request .., rfl, rfl⟩
  | false =>
      simp only [Bool.false_eq_true, if_false]
      exact ⟨_, _, rfl, .wrote _ _, rfl, rfl⟩

/-- The daemon does nothing itself. -/
theorem switchRequest_eq {s : Session} (h : FitsControl version s.request type arguments) :
    switchRequest fl s = some (s, false) := by
  have hdevice : needsDevice s.request.code = false := by
    by_contra hneeds
    have hmem : s.request.code ∈ specialCodes := by
      simp only [needsDevice, Bool.not_eq_false, List.contains_iff_mem] at hneeds
      exact List.mem_append_left _ hneeds
    exact h.plain hmem
  simp only [switchRequest, hdevice, Bool.false_eq_true, if_false,
    if_neg (h.code_ne (show IG_EXCH_VERSIONS ∈ specialCodes by decide)),
    if_neg (h.code_ne (show IG_CTL_LISTDEVS ∈ specialCodes by decide)),
    if_neg (h.code_ne (show IG_CTL_DEVADDR ∈ specialCodes by decide)),
    if_neg (h.code_ne (show IG_DEV_IDSOFF ∈ specialCodes by decide)),
    if_neg (h.code_ne (show IG_DEV_IDSON ∈ specialCodes by decide)),
    if_neg (h.code_ne (show IG_DEV_IDSTATE ∈ specialCodes by decide))]

theorem packed_device (s : Session) (ok : Bool) (response : Option DataPacket) :
    (if ok then packResponse s response else s).device = s.device := by
  split_ifs
  · cases response <;> rfl
  · rfl

/-- What the client is told when the wait for the response ends. -/
def told (type : PacketType) (request : DataPacket) : Ack → Option DataPacket
  | .reply pos => (acceptResponse type request pos).map (fun pos =>
      ⟨request.code, pos.dataLen, pos.data⟩)
  | _ => none

/-- **The request of a client**, for any firmware behind the endpoint. -/
theorem exchange {recv : Mcu → Option Mcu} {target : Client} {fault : Fault} {rig rig' : Rig}
    {reply : Option DataPacket} (h : FitsControl rig.device.idev.version request type arguments)
    (htarget : target.version = IG_PROTOCOL_VERSION) (hout : rig.mcu.out = [])
    (hexchange : DeviceExchange fl recv target fault request rig rig' reply) :
    rig'.device.idev.version = rig.device.idev.version ∧
    if fault = .unsent then rig'.mcu = rig.mcu ∧ reply = none
    else recv (rig.mcu.finds (hostPacket request.code arguments)) = some rig'.mcu ∧
      ∃ disconnectOnEPipe, reply = told type request (fault.ack
        (readerResponse (rig.settings disconnectOnEPipe) rig'.mcu.sent)) := by
  obtain ⟨server, outcome, resetOk, disconnectOnEPipe, s, ok, hrequest, hdevice, rfl, -, hsent,
    hmcu⟩ := hexchange.exchanged
  obtain ⟨d', a, htransaction, hkeeps, ha, hdone⟩ :=
    @deviceTransaction_eq fl request type arguments (rig.facing outcome) h
  have hforwards := @handleClientRequest_forwards fl resetOk
    ⟨server, some (rig.facing outcome), target, request⟩ (rig.facing outcome) d' type a rfl htarget
    h.accepted h.switchRequest_eq htransaction (congrArg DataPacket.code ha)
    (h.code_ne (by decide)) (h.code_ne (by decide))
  obtain ⟨rfl, rfl⟩ := Prod.mk.inj (Option.some.inj (hrequest.symm.trans hforwards))
  have hdevice' : rig'.device = d' := by
    exact Option.some.inj (hdevice.symm.trans (packed_device _ a.ok a.response))
  have houtcome : (rig.facing outcome).usb.outcome = outcome := rfl
  rw [houtcome, hsent] at hdone
  refine ⟨by rw [hdevice']; exact hkeeps.version, ?_⟩
  by_cases hunsent : fault = .unsent
  · rw [if_pos hunsent] at hmcu ⊢
    rw [hunsent, if_neg (by decide)] at hdone
    refine ⟨hmcu, ?_⟩
    rw [hdone]
    rfl
  · rw [if_neg hunsent] at hmcu ⊢
    rw [if_pos (bne_iff_ne.mpr hunsent)] at hdone
    obtain ⟨ha, hwire⟩ := hdone
    obtain ⟨hfirmware, hack⟩ := hmcu
    rw [hdevice', hwire, hout] at hfirmware
    refine ⟨hfirmware, disconnectOnEPipe, ?_⟩
    rw [← hack, ha]
    cases outcome.ack with
    | readError => rfl
    | timeout => rfl
    | reply pos =>
        rw [ackAnswer, told]
        cases acceptResponse type request pos <;> rfl

/-- Every such request can be exchanged. -/
theorem exchange_exists {recv : Mcu → Option Mcu} {target : Client} (fault : Fault) {rig : Rig}
    {m' : Mcu} (h : FitsControl rig.device.idev.version request type arguments)
    (htarget : target.version = IG_PROTOCOL_VERSION) (hout : rig.mcu.out = [])
    (hrecv : recv (rig.mcu.finds (hostPacket request.code arguments)) = some m') :
    ∃ rig' reply, rig'.mcu = (if fault = .unsent then rig.mcu else m') ∧
      DeviceExchange fl recv target fault request rig rig' reply := by
  obtain ⟨outcome, houtcome⟩ : ∃ outcome : Outcome, outcome = ⟨fault != .unsent, none,
    fault.ack (readerResponse (rig.settings false) m'.sent), []⟩ := ⟨_, rfl⟩
  obtain ⟨d', a, htransaction, -, ha, hdone⟩ :=
    @deviceTransaction_eq fl request type arguments (rig.facing outcome) h
  have hforwards := @handleClientRequest_forwards fl false
    ⟨⟨false, []⟩, some (rig.facing outcome), target, request⟩ (rig.facing outcome) d' type a rfl
    htarget h.accepted h.switchRequest_eq htransaction (congrArg DataPacket.code ha)
    (h.code_ne (by decide)) (h.code_ne (by decide))
  have hsent : (rig.facing outcome).usb.outcome.controlSent = (fault != .unsent) := by
    rw [houtcome]
    rfl
  rw [hsent] at hdone
  refine ⟨⟨d', if fault = .unsent then rig.mcu else m'⟩, _, rfl, ⟨⟨false, []⟩, outcome, false,
    false, _, _, hforwards, ?_, rfl, by rw [houtcome], by rw [houtcome], ?_⟩⟩
  · exact packed_device _ a.ok a.response
  · by_cases hunsent : fault = .unsent
    · rw [if_pos hunsent, if_pos hunsent]
    · rw [if_pos (bne_iff_ne.mpr hunsent)] at hdone
      rw [if_neg hunsent, if_neg hunsent]
      refine ⟨?_, by rw [houtcome]⟩
      rw [hdone.2, hout]
      exact hrecv

/-- The answer of the firmware is told unless it gets lost. -/
theorem exchange_answered {recv : Mcu → Option Mcu} {target : Client} {fault : Fault}
    {rig rig' : Rig} {reply : Option DataPacket} {m' : Mcu} (data : List Byte)
    (h : FitsControl rig.device.idev.version request type arguments)
    (htarget : target.version = IG_PROTOCOL_VERSION) (hout : rig.mcu.out = [])
    (hexchange : DeviceExchange fl recv target fault request rig rig' reply)
    (hmatch : payloadMatch (BitVec.ofNat 8 type.inData) (BitVec.ofInt 8 data.length) = true)
    (hlen : type.inData = NO_PAYLOAD ∨ type.inData ≤ data.length) (hunsent : fault ≠ .unsent)
    (hrecv : recv (rig.mcu.finds (hostPacket request.code arguments)) = some m')
    (hsent : m'.sent = [replyHeader request.code ++ data]) :
    rig'.mcu = m' ∧
      reply = if fault = .intact then some ⟨request.code, data.length, some data⟩ else none := by
  obtain ⟨-, hdone⟩ := h.exchange htarget hout hexchange
  rw [if_neg hunsent] at hdone
  obtain ⟨hfirmware, disconnectOnEPipe, hreply⟩ := hdone
  obtain rfl := Option.some.inj (hrecv.symm.trans hfirmware)
  obtain ⟨htype, hdir⟩ : findTypeEntry request.code rig.device.idev.version = some type ∧
      type.direction = CTL_TODEV := by
    have haccepted := h.accepted
    unfold checkIncomingProtocol at haccepted
    split at haccepted
    · cases haccepted
    · rename_i found hfound
      split_ifs at haccepted with hdirection
      obtain rfl := Option.some.inj haccepted
      exact ⟨hfound, not_not.mp hdirection⟩
  have hsettings : 0x200 ≤ (rig.settings disconnectOnEPipe).version := h.newer
  have hresponse := readerResponse_single hsettings htype hdir hlen
  have haccept : acceptResponse type request ⟨request.code, data.length, some data⟩ =
      some ⟨request.code, data.length, some data⟩ := by
    have hid : request.code ≠ IG_DEV_SETID := h.code_ne (by decide)
    have hinvalid : request.code ≠ IG_DEV_INVALID_ARG := h.code_ne (by decide)
    unfold acceptResponse
    simp only [hid, false_and, if_false, if_neg hinvalid, ne_eq, not_true_eq_false, hmatch]
  refine ⟨rfl, ?_⟩
  rw [hreply, hsent, hresponse]
  cases fault with
  | intact =>
      rw [if_pos rfl, Fault.ack, told, haccept]
      rfl
  | unsent => exact absurd rfl hunsent
  | unanswered => rfl

end FitsControl

/-! ### The commands -/

/-- The data of a value for the pins; a device without a slot has four of them at each port. -/
def iguanaPinSpecToData (value : BitVec 32) (slotDev : Bool) : List Byte :=
  if slotDev then [(value &&& 0xFF).setWidth 8, 0]
  else [(value &&& 0x0F).setWidth 8, ((value &&& 0xF0) >>> 4).setWidth 8]

def iguanaDataToPinSpec (data : Option (List Byte)) (slotDev : Bool) : Option Byte :=
  if slotDev then (readBytes data 1).map (fun bytes => bytes.getD 0 0)
  else (readBytes data 2).map (fun bytes =>
    (bytes.getD 0 0 &&& (0x0F : Byte)) ||| (bytes.getD 1 0 &&& (0x0F : Byte)) <<< 4)

/-- The commands of igclient for the pins. -/
inductive PinCommand where
  | set (value : BitVec 32)
  | get
deriving DecidableEq, Repr

/-- What igclient prints of a command. -/
inductive PinOutput where
  | failed
  | success
  | value (pins : Byte)
deriving DecidableEq, Repr

namespace PinCommand

/-- The request, unless there are not as many pins. -/
def request (slotDev : Bool) : PinCommand → Option DataPacket
  | set value =>
      if 0xFF < value then none
      else some ⟨IG_DEV_SETPINS, 2, some (iguanaPinSpecToData value slotDev)⟩
  | get => some (bareRequest IG_DEV_GETPINS)

def output (slotDev : Bool) : PinCommand → Option DataPacket → Option PinOutput
  | _, none => some .failed
  | set _, some _ => some .success
  | get, some response => (iguanaDataToPinSpec response.data slotDev).map .value

end PinCommand

/-- `deviceFeatures & IG_SLOT_DEV`, for the features that the device has told. -/
def slotDev (features : Byte) : Bool := features &&& IG_SLOT_DEV ≠ 0

/-! ### The register -/

/-- The pins that can be set. -/
def freePins (features : Byte) : Byte := if slotDev features then ~~~0x20 else 0xFF

/-- The pins of the firmware as one number. -/
def pinNumber (m : Mcu) : Byte :=
  if slotDev m.features then (pinState m).1 else (pinState m).1 ||| (pinState m).2 <<< 4

/-- A register with commands that get lost: a command that is not sent changes nothing, and one
without reply still does. -/
def registerStep (free pins : Byte) : PinCommand × Fault → Option (Byte × PinOutput)
  | (.set value, fault) =>
      some (if fault = .unsent then pins else value.setWidth 8 &&& free,
        if fault = .intact then .success else .failed)
  | (.get, fault) => some (pins, if fault = .intact then .value pins else .failed)

theorem slotDev_iff (features : Byte) : slotDev features = true ↔ features &&& SLOT_DEV ≠ 0 :=
  decide_eq_true_iff

/-- A value and the two bytes that the firmware makes of it. -/
theorem number_ports : ∀ v : Byte,
    ((v.setWidth 32 &&& 0x0F : BitVec 32).setWidth 8 &&& (0x0F : Byte)) |||
      (((v.setWidth 32 &&& 0xF0 : BitVec 32) >>> 4).setWidth 8 &&& (0x0F : Byte)) <<< 4 = v := by
  decide +kernel

theorem number_slot : ∀ v : Byte, (v.setWidth 32 &&& 0xFF : BitVec 32).setWidth 8 = v := by
  decide +kernel

theorem pinNumber_set {m : Mcu} {features : Byte} {value : BitVec 32} {a b : Byte}
    (hvalue : ¬0xFF < value) (hfeatures : m.features = features)
    (hdata : iguanaPinSpecToData value (slotDev features) = [a, b])
    (hpins : pinState m = pinsTaken features a b) :
    pinNumber m = value.setWidth 8 &&& freePins features := by
  obtain ⟨v, rfl⟩ : ∃ v : Byte, value = v.setWidth 32 := by
    refine ⟨value.setWidth 8, ?_⟩
    apply BitVec.eq_of_toNat_eq
    have hle : value.toNat ≤ 255 := Nat.not_lt.mp hvalue
    simp only [BitVec.toNat_setWidth]
    omega
  have hback : (v.setWidth 32).setWidth 8 = v := by
    rw [BitVec.setWidth_setWidth_of_le _ (by omega), BitVec.setWidth_eq]
  subst hfeatures
  rw [hback, pinNumber, hpins, freePins]
  by_cases hslot : slotDev m.features = true
  · rw [iguanaPinSpecToData, if_pos hslot] at hdata
    obtain ⟨rfl, -⟩ := List.cons.inj hdata
    rw [if_pos hslot, if_pos hslot, pinsTaken, if_pos ((slotDev_iff _).mp hslot)]
    exact congrArg (· &&& ~~~0x20) (number_slot v)
  · rw [iguanaPinSpecToData, if_neg hslot] at hdata
    obtain ⟨rfl, hb⟩ := List.cons.inj hdata
    obtain ⟨rfl, -⟩ := List.cons.inj hb
    rw [if_neg hslot, if_neg hslot, pinsTaken, if_neg (fun hs => hslot ((slotDev_iff _).mpr hs))]
    exact (number_ports v).trans (BitVec.and_allOnes).symm

/-- The two bytes of the answer are the number. -/
theorem dataToPinSpec_pinState (m : Mcu) :
    iguanaDataToPinSpec (some [(pinState m).1, (pinState m).2]) (slotDev m.features) =
      some (pinNumber m) := by
  have hread := @readBytes_some [(pinState m).1, (pinState m).2] 2 (Nat.le_refl 2)
  have hread' := @readBytes_some [(pinState m).1, (pinState m).2] 1 (by simp)
  by_cases hslot : slotDev m.features = true
  · rw [iguanaDataToPinSpec, if_pos hslot, pinNumber, if_pos hslot]
    exact congrArg (Option.map _) hread'
  · have hports := pinState_ports (not_not.mp (fun hs => hslot ((slotDev_iff m.features).mpr hs)))
    have hnibble (v w : Byte) : v &&& w &&& w = v &&& w := by rw [BitVec.and_assoc, BitVec.and_self]
    have hfirst : (pinState m).1 &&& (0x0F : Byte) = (pinState m).1 := by
      rw [hports]
      exact hnibble _ _
    have hsecond : (pinState m).2 &&& (0x0F : Byte) = (pinState m).2 := by
      rw [hports]
      exact hnibble _ _
    have hnumber : ((pinState m).1 &&& (0x0F : Byte)) ||| ((pinState m).2 &&& (0x0F : Byte)) <<< 4 =
        (pinState m).1 ||| (pinState m).2 <<< 4 := by
      rw [hfirst, hsecond]
    rw [iguanaDataToPinSpec, if_neg hslot, pinNumber, if_neg hslot, ← hnumber]
    exact congrArg (Option.map _) hread

/-! ### The firmware -/

section

variable {others : Byte → Mcu → Option Mcu} {m m' : Mcu}

/-- `IG_DEV_SETPINS` is acknowledged. -/
theorem mainLoop_setPins_sent {a b : Byte} {queue : List (List Byte)}
    (hgpio : gpioFeatures m.features) (hout : m.out = hostPacket IG_DEV_SETPINS [a, b] :: queue)
    (h : mainLoop others m = some m') : m'.sent = m.sent ++ [replyHeader IG_DEV_SETPINS] := by
  obtain ⟨-, m₁, -, -, hhandler, hentered, -⟩ :=
    mainLoop_enters (show [a, b].length ≤ 4 by simp) hout (by decide) h
  have hgpio₁ : gpioFeatures m₁.features := by rwa [hentered.features]
  obtain ⟨m₂, data, hbody, hlen, hsent⟩ := setPins_answers hentered.running hgpio₁
  obtain rfl := Option.some.inj (hbody.symm.trans hhandler)
  obtain rfl := List.eq_nil_of_length_eq_zero hlen
  rw [hsent, hentered.sent, hentered.code, List.append_nil]

/-- `IG_DEV_GETPINS` keeps the pins. -/
theorem mainLoop_getPins_keeps {queue : List (List Byte)} (hq : ¬repeating m) (hstay : PinsStay m)
    (hout : m.out = hostPacket IG_DEV_GETPINS [] :: queue) (h : mainLoop others m = some m') :
    KeepsPins m m' := by
  have hnone : ([] : List Byte).length ≤ 4 := by simp
  exact mainLoop_keepsPins (.of_command hstay hnone hout (by decide)) hq h

theorem pinNumber_keeps (h : KeepsPins m m') (hgpio : gpioFeatures m.features) :
    pinNumber m' = pinNumber m := by
  rw [pinNumber, pinNumber, h.features, h.pinState_eq hgpio]

end

/-! ### Runs -/

/-- A command, how it went, and the reply. -/
structure PinEntry where
  command : PinCommand
  fault : Fault
  reply : Option DataPacket

variable (fl) in
/-- Commands of any clients, with what else the daemon and the firmware do between them. -/
inductive PinRun (others : Byte → Mcu → Option Mcu) : Rig → List PinEntry → Rig → Prop where
  | done (rig : Rig) : PinRun others rig [] rig
  | other {rig rig₁ rig' : Rig} {log : List PinEntry}
      (hversion : rig₁.device.idev.version = rig.device.idev.version)
      (hstep : OtherStep others rig.mcu rig₁.mcu) (hrest : PinRun others rig₁ log rig') :
      PinRun others rig log rig'
  | command {rig rig₁ rig' : Rig} {log : List PinEntry} {target : Client} {command : PinCommand}
      {request : DataPacket} {fault : Fault} {reply : Option DataPacket}
      (htarget : target.version = IG_PROTOCOL_VERSION) (hready : rig.Ready)
      (hstay : command = .get → PinsStay rig.mcu)
      (hrequest : command.request (slotDev rig.mcu.features) = some request)
      (hexchange : DeviceExchange fl (mainLoop others) target fault request rig rig₁ reply)
      (hrest : PinRun others rig₁ log rig') :
      PinRun others rig (⟨command, fault, reply⟩ :: log) rig'

/-- What holds all along. -/
structure Rig.HasPins (rig : Rig) : Prop where
  newer : 0x200 ≤ rig.device.idev.version
  gpio : gpioFeatures rig.mcu.features
  quiet : ¬repeating rig.mcu

section

variable {others : Byte → Mcu → Option Mcu} {rig rig' : Rig} {target : Client} {fault : Fault}
  {reply : Option DataPacket}

theorem iguanaPinSpecToData_pair (value : BitVec 32) (slotDev : Bool) :
    ∃ a b, iguanaPinSpecToData value slotDev = [a, b] := by
  unfold iguanaPinSpecToData
  split
  · exact ⟨_, _, rfl⟩
  · exact ⟨_, _, rfl⟩

theorem findTypeEntry_pins {code : Byte} {version : Version} {type type' : PacketType}
    (hrows : types.filter (·.type.code == code) = [⟨0, 0x003, type⟩, ⟨0x101, 0, type'⟩])
    (h : 0x200 ≤ version) : findTypeEntry code version = some type' := by
  have h' : 0x200 ≤ version.toNat := h
  rw [findTypeEntry_rows, hrows, List.find?_cons_of_neg, List.find?_cons_of_pos]
  · rfl
  · simp only [beq_self_eq_true, Bool.or_true, Bool.and_true, decide_eq_true_eq]
    omega
  · simp only [Nat.zero_le, decide_true, Bool.true_and, Bool.or_eq_true, decide_eq_true_eq,
      beq_iff_eq]
    omega

/-- The request of `set`. -/
theorem fitsControl_set {version : Version} (hversion : 0x200 ≤ version) (a b : Byte) :
    FitsControl version ⟨IG_DEV_SETPINS, 2, some [a, b]⟩
      ⟨IG_DEV_SETPINS, CTL_TODEV, 2, true, NO_PAYLOAD⟩ [a, b] where
  newer := hversion
  plain := show IG_DEV_SETPINS ∉ specialCodes by decide
  accepted := by
    rw [checkIncomingProtocol, Option.getD_some, findTypeEntry_pins rfl hversion]
    rfl
  ack := rfl
  short := by simp
  length := rfl
  data := @readBytes_some [a, b] 2 (Nat.le_refl 2)

/-- The request of `get`. -/
theorem fitsControl_get {version : Version} (hversion : 0x200 ≤ version) :
    FitsControl version (bareRequest IG_DEV_GETPINS)
      ⟨IG_DEV_GETPINS, CTL_TODEV, NO_PAYLOAD, true, 2⟩ [] where
  newer := hversion
  plain := by decide
  accepted := by
    rw [checkIncomingProtocol, Option.getD_some, bareRequest, findTypeEntry_pins rfl hversion]
    rfl
  ack := rfl
  short := by simp
  length := rfl
  data := readBytes_zero none

/-- A request that is lost on its way changes nothing. -/
theorem exchange_unsent {request : DataPacket} {type : PacketType} {arguments : List Byte}
    (hpins : rig.HasPins) (htarget : target.version = IG_PROTOCOL_VERSION) (hready : rig.Ready)
    (hfits : FitsControl rig.device.idev.version request type arguments)
    (hexchange : DeviceExchange fl (mainLoop others) target .unsent request rig rig' reply) :
    rig'.HasPins ∧ rig'.mcu = rig.mcu ∧ reply = none := by
  obtain ⟨hversion, hmcu, hreply⟩ := hfits.exchange htarget hready.out hexchange
  refine ⟨⟨?_, ?_, ?_⟩, hmcu, hreply⟩
  · rw [hversion]
    exact hpins.newer
  · rw [hmcu]
    exact hpins.gpio
  · rw [hmcu]
    exact hpins.quiet

/-- The pins are set unless the request is lost on its way. -/
theorem exchange_set {value : BitVec 32} (hpins : rig.HasPins)
    (htarget : target.version = IG_PROTOCOL_VERSION) (hready : rig.Ready) (hvalue : ¬0xFF < value)
    (hexchange : DeviceExchange fl (mainLoop others) target fault
      ⟨IG_DEV_SETPINS, 2, some (iguanaPinSpecToData value (slotDev rig.mcu.features))⟩ rig rig'
      reply) :
    rig'.HasPins ∧ rig'.mcu.features = rig.mcu.features ∧
      pinNumber rig'.mcu = (if fault = .unsent then pinNumber rig.mcu
        else value.setWidth 8 &&& freePins rig.mcu.features) ∧
      (reply.isSome ↔ fault = .intact) := by
  obtain ⟨a, b, hdata⟩ := iguanaPinSpecToData_pair value (slotDev rig.mcu.features)
  rw [hdata] at hexchange
  have hfits := fitsControl_set hpins.newer a b
  by_cases hunsent : fault = .unsent
  · subst hunsent
    obtain ⟨hpins', hmcu, rfl⟩ := exchange_unsent hpins htarget hready hfits hexchange
    refine ⟨hpins', by rw [hmcu], by rw [hmcu, if_pos rfl], by simp⟩
  · obtain ⟨hversion, hdone⟩ := hfits.exchange htarget hready.out hexchange
    rw [if_neg hunsent] at hdone
    obtain ⟨hround, -⟩ := hdone
    have hgpio : gpioFeatures (rig.mcu.finds (hostPacket IG_DEV_SETPINS [a, b])).features :=
      hpins.gpio
    obtain ⟨hstate, hfeatures, hrepeating⟩ := mainLoop_setPins hgpio rfl hround
    have hsent := mainLoop_setPins_sent hgpio rfl hround
    obtain ⟨-, hreply⟩ := hfits.exchange_answered [] htarget hready.out hexchange rfl (.inl rfl)
      hunsent hround hsent
    refine ⟨⟨?_, ?_, fun hr => hpins.quiet (hrepeating.mp hr)⟩, hfeatures, ?_, ?_⟩
    · rw [hversion]
      exact hpins.newer
    · rw [hfeatures]
      exact hpins.gpio
    · rw [if_neg hunsent]
      exact pinNumber_set hvalue hfeatures hdata hstate
    · rw [hreply]
      split_ifs with hintact <;> simp [hintact]

/-- The reply is what the pins are. -/
theorem exchange_get (hpins : rig.HasPins) (htarget : target.version = IG_PROTOCOL_VERSION)
    (hready : rig.Ready) (hstay : PinsStay rig.mcu)
    (hexchange : DeviceExchange fl (mainLoop others) target fault (bareRequest IG_DEV_GETPINS) rig
      rig' reply) :
    rig'.HasPins ∧ rig'.mcu.features = rig.mcu.features ∧ pinNumber rig'.mcu = pinNumber rig.mcu ∧
      reply = if fault = .intact then some ⟨IG_DEV_GETPINS, 2,
        some [(pinState rig.mcu).1, (pinState rig.mcu).2]⟩ else none := by
  have hfits := fitsControl_get hpins.newer
  by_cases hunsent : fault = .unsent
  · subst hunsent
    obtain ⟨hpins', hmcu, rfl⟩ := exchange_unsent hpins htarget hready hfits hexchange
    exact ⟨hpins', by rw [hmcu], by rw [hmcu], rfl⟩
  · obtain ⟨hversion, hdone⟩ := hfits.exchange htarget hready.out hexchange
    rw [if_neg hunsent] at hdone
    obtain ⟨hround, -⟩ := hdone
    obtain ⟨m₀, hm₀⟩ : ∃ m₀, m₀ = rig.mcu.finds (hostPacket IG_DEV_GETPINS []) := ⟨_, rfl⟩
    have hsame : KeepsPins rig.mcu m₀ := by
      rw [hm₀]
      exact .of_reg rfl rfl rfl
    have hstay₀ : PinsStay m₀ := by rwa [hm₀]
    have hout₀ : m₀.out = [hostPacket IG_DEV_GETPINS []] := by rw [hm₀]; rfl
    have hquiet₀ : ¬repeating m₀ := fun hr => hpins.quiet (hsame.repeating_iff.mp hr)
    have hkeeps := hsame.trans (mainLoop_getPins_keeps hquiet₀ hstay₀ hout₀ (hm₀ ▸ hround))
    have hgpio₀ : gpioFeatures m₀.features := by rw [hm₀]; exact hpins.gpio
    have hnone : ([] : List Byte).length ≤ 4 := by simp
    have hdata := mainLoop_getPins hgpio₀ hstay₀ hnone hout₀ (hm₀ ▸ hround)
    rw [hm₀] at hdata
    obtain ⟨-, hreply⟩ := hfits.exchange_answered [(pinState rig.mcu).1, (pinState rig.mcu).2]
      htarget hready.out hexchange rfl (.inr (Nat.le_refl 2)) hunsent hround hdata
    refine ⟨⟨?_, ?_, fun hr => hpins.quiet (hkeeps.repeating_iff.mp hr)⟩, hkeeps.features,
      pinNumber_keeps hkeeps hpins.gpio, hreply⟩
    · rw [hversion]
      exact hpins.newer
    · rw [hkeeps.features]
      exact hpins.gpio

/-- One command does what the register does. -/
theorem exchange_command {command : PinCommand} {request : DataPacket} (hpins : rig.HasPins)
    (htarget : target.version = IG_PROTOCOL_VERSION) (hready : rig.Ready)
    (hstay : command = .get → PinsStay rig.mcu)
    (hrequest : command.request (slotDev rig.mcu.features) = some request)
    (hexchange : DeviceExchange fl (mainLoop others) target fault request rig rig' reply) :
    rig'.HasPins ∧ rig'.mcu.features = rig.mcu.features ∧
    ∃ output, registerStep (freePins rig.mcu.features) (pinNumber rig.mcu) (command, fault) =
        some (pinNumber rig'.mcu, output) ∧
      command.output (slotDev rig.mcu.features) reply = some output := by
  cases command with
  | set value =>
      rw [PinCommand.request] at hrequest
      split_ifs at hrequest with hvalue
      obtain rfl := Option.some.inj hrequest
      obtain ⟨hpins', hfeatures, hnumber, hreply⟩ :=
        exchange_set hpins htarget hready hvalue hexchange
      refine ⟨hpins', hfeatures, _, by rw [hnumber]; rfl, ?_⟩
      cases reply with
      | none => rw [if_neg (fun hintact => by simpa using hreply.mpr hintact)]; rfl
      | some response => rw [if_pos (hreply.mp rfl)]; rfl
  | get =>
      obtain rfl := Option.some.inj hrequest
      obtain ⟨hpins', hfeatures, hnumber, rfl⟩ :=
        exchange_get hpins htarget hready (hstay rfl) hexchange
      refine ⟨hpins', hfeatures, _, by rw [hnumber]; rfl, ?_⟩
      split_ifs
      · exact congrArg (Option.map _) (dataToPinSpec_pinState rig.mcu)
      · rfl

end

/-- A device with eight free pins at two ports. -/
def pinRig : Rig := ⟨burstDevice, pinDevice 0 []⟩

end IguanaIR
