import IguanaIR.ClientInterface
import IguanaIR.FlashProtection
import IguanaIR.Incoming
import IguanaIR.Firmware.UsbIrReflasher

/-! # A block and its reply

One request of a client of the daemon, from `handleClientRequest` to the microcontroller and back:
what the transaction writes to the endpoint is what the firmware finds there, and what the reader
thread makes of the firmware's packets is the answer that the transaction finds.

A request may get lost before the device has seen it, and so may the reply of the device. -/

namespace IguanaIR

open Firmware

variable {fl : ℚ → ℚ} {recv : Mcu → Option Mcu}

/-- The daemon's device with the microcontroller at its other end. -/
structure Rig where
  device : Device
  mcu : Mcu

/-- What goes wrong with a request. -/
inductive Fault where
  | intact
  /-- The control packet cannot be written. -/
  | unsent
  /-- The wait for the response ends without one. -/
  | unanswered
deriving DecidableEq, Repr

/-- The response that the reader thread makes of the packets of the device. -/
def readerResponse (settings : ReaderSettings) (sent : List (List Byte)) : Option DataPacket :=
  (handleIncomingPackets settings (.waiting 0) (sent.map .data)).bind (fun (_, routed) =>
    routed.findSome? (fun
      | .response packet => some packet
      | .recvList _ => none))

/-- What the wait for the response ends with. -/
def Fault.ack (fault : Fault) (response : Option DataPacket) : Ack :=
  match fault, response with
  | .intact, some packet => .reply packet
  | _, _ => .timeout

namespace Rig

def settings (rig : Rig) (disconnectOnEPipe : Bool) : ReaderSettings :=
  ⟨rig.device.idev.maxPacketSize, rig.device.idev.version, disconnectOnEPipe⟩

/-- The firmware waits for a packet. -/
structure Ready (rig : Rig) : Prop where
  running : ¬halted rig.mcu
  out : rig.mcu.out = []

/-- The device with the endpoint of one transaction. -/
def facing (rig : Rig) (outcome : Outcome) : Device := { rig.device with usb := ⟨[outcome], []⟩ }

end Rig

/-- What the client is told: the request with what was packed for it, or an error. -/
def clientReply (s : Session) (ok : Bool) : Option DataPacket := if ok then some s.request else none

/-- A client's request is handled by the daemon and the firmware `recv`. -/
structure DeviceExchange (fl : ℚ → ℚ) (recv : Mcu → Option Mcu) (target : Client) (fault : Fault)
    (request : DataPacket) (rig rig' : Rig) (reply : Option DataPacket) : Prop where
  exchanged : ∃ server outcome resetOk disconnectOnEPipe s ok,
    handleClientRequest fl resetOk ⟨server, some (rig.facing outcome), target, request⟩ =
      some (s, ok) ∧
    s.device = some rig'.device ∧ reply = clientReply s ok ∧
    outcome.failAt = none ∧ outcome.controlSent = (fault != .unsent) ∧
    if fault = .unsent then rig'.mcu = rig.mcu
    else recv { rig.mcu with out := rig.mcu.out ++ rig'.device.usb.wire, sent := [] } =
        some rig'.mcu ∧
      outcome.ack = fault.ack (readerResponse (rig.settings disconnectOnEPipe) rig'.mcu.sent)

/-! ### The reader -/

/-- A reply in the outer loop, for the newer devices. -/
theorem startPacket_newer {version : Version} (hversion : 0x200 ≤ version) (code : Byte)
    (data : List Byte) :
    startPacket version (replyHeader code ++ data) = ⟨code, data.length, some data⟩ := by
  have hlength : (replyHeader code ++ data).length = 4 + data.length := by
    rw [List.length_append]
    rfl
  have hcontrol : isControl (replyHeader code ++ data) = true := by
    unfold isControl
    rw [hlength]
    simp [replyHeader, MIN_CTL_LENGTH, CTL_START, CTL_FROMDEV, TO_PC]
  unfold startPacket
  rw [if_pos hcontrol, hlength]
  dsimp only
  rw [translateDevice_newer hversion, Option.getD_some]
  congr 1
  rw [MIN_CTL_LENGTH]
  push_cast
  omega

theorem findTypeEntry_invalidArg {version : Version} (h : 0x200 ≤ version) :
    findTypeEntry IG_DEV_INVALID_ARG version =
      some ⟨IG_DEV_INVALID_ARG, CTL_TODEV, NO_PAYLOAD, false, NO_PAYLOAD⟩ := by
  have hrows : types.filter (·.type.code == IG_DEV_INVALID_ARG) =
      [⟨0x101, 0, ⟨IG_DEV_INVALID_ARG, CTL_TODEV, NO_PAYLOAD, false, NO_PAYLOAD⟩⟩] := by decide
  have h' : 0x200 ≤ version.toNat := h
  rw [findTypeEntry_rows, hrows, List.find?_cons_of_pos]
  · rfl
  · simp only [beq_self_eq_true, Bool.or_true, Bool.and_true, decide_eq_true_eq]
    omega

/-- One packet that is a response is the response. -/
theorem readerResponse_single {settings : ReaderSettings} (hversion : 0x200 ≤ settings.version)
    {code : Byte} {data : List Byte} {type : PacketType}
    (htype : findTypeEntry code settings.version = some type) (hdir : type.direction = CTL_TODEV)
    (hlen : type.inData = NO_PAYLOAD ∨ type.inData ≤ data.length) :
    readerResponse settings [replyHeader code ++ data] = some ⟨code, data.length, some data⟩ := by
  have hdone : ¬(type.inData ≠ NO_PAYLOAD ∧ (data.length : ℤ) < type.inData) := by omega
  have houter : outerPacket settings.version (replyHeader code ++ data) =
      (.waiting (replyHeader code ++ data).length, [.response ⟨code, data.length, some data⟩]) := by
    unfold outerPacket
    simp only [startPacket_newer hversion, htype, if_neg hdone, queueDataPacket,
      if_neg (not_not.mpr hdir)]
  have hstep : handleIncoming settings (.waiting 0) (.data (replyHeader code ++ data)) =
      some (.waiting (replyHeader code ++ data).length,
        [.response ⟨code, data.length, some data⟩]) := congrArg some houter
  rw [readerResponse, handleIncomingPackets, List.map_singleton,
    Transition.run_step hstep (rfl : Transition.run _ _ [] = some (_, []))]
  rfl

/-! ### The daemon -/

/-- What a transaction that sent everything ends with. -/
theorem transaction_answer {checks : Device → Option (Device × Bool)} {d d₁ d' : Device}
    {request : DataPacket} {type : PacketType} {p : Prepared} {a : Answer} {nullResponse : Bool}
    (htype : checkIncomingProtocol (some d.idev.version) request nullResponse = some type)
    (hprepare : prepare fl checks d request = some (d₁, p)) (husb : d₁.usb = d.usb)
    (hsent : d.usb.outcome.controlSent = true) (hall : d.usb.outcome.failAt = none)
    (h : transaction fl checks d request nullResponse = some (d', a)) :
    a = closeTransaction type p.request true d.usb.outcome.ack := by
  rw [transaction, htype] at h
  simp only [hprepare, Option.bind_eq_bind, Option.bind_some, transmit, husb, hsent, hall,
    if_true, Option.map_eq_some_iff] at h
  obtain ⟨⟨sent, packets⟩, hstream, heq⟩ := h
  obtain ⟨-, rfl⟩ := Prod.mk.inj heq
  have htrue : sent = true := by
    unfold dataStream at hstream
    split_ifs at hstream
    · simp only [Option.bind_eq_bind, Option.bind_eq_some_iff, Option.some.injEq] at hstream
      obtain ⟨bytes, -, hdata⟩ := hstream
      exact (Prod.mk.inj hdata).1.symm
    · exact (Prod.mk.inj (Option.some.inj hstream)).1.symm
  rw [htrue]

theorem ackAnswer_request (type : PacketType) (request : DataPacket) (ack : Ack) :
    (ackAnswer type request ack).request = request := by
  cases ack with
  | readError => rfl
  | timeout => rfl
  | reply pos =>
      unfold ackAnswer
      dsimp only
      cases acceptResponse type request pos <;> rfl

/-- A request that the daemon hands on to the device, for a client of the current version. -/
theorem handleClientRequest_forwards {resetOk : Bool} {s : Session} {d d' : Device}
    {type : PacketType} {a : Answer} (hdevice : s.device = some d)
    (htarget : s.target.version = IG_PROTOCOL_VERSION)
    (htype : checkIncomingProtocol (some d.idev.version) s.request false = some type)
    (hswitch : switchRequest fl s = some (s, false))
    (htransaction : deviceTransaction fl d s.request false = some (d', a))
    (hcode : a.request.code = s.request.code) (hreset : s.request.code ≠ IG_DEV_RESET)
    (hrecv : s.request.code ≠ IG_DEV_RECVON) :
    handleClientRequest fl resetOk s =
      some (if a.ok then packResponse { s with device := some d', request := a.request } a.response
        else { s with device := some d', request := a.request }, a.ok) := by
  have hforward : forwardRequest fl resetOk s = some ({ s with device := some d', request := a.request },
      a.ok, if a.ok then a.response else none) := by
    rw [forwardRequest, hdevice]
    simp only [htransaction, Option.bind_eq_bind, Option.bind_some, hcode, beq_false_of_ne hreset,
      Bool.false_and]
    cases a.ok <;> rfl
  have hcount : countReceiver { s with device := some d', request := a.request } =
      some { s with device := some d', request := a.request } := by
    rw [countReceiver, if_neg (by rw [hcode]; exact hrecv)]
  have hrecord : recordSuccess { s with device := some d', request := a.request } a.ok
      (if a.ok then a.response else none) =
        some (if a.ok then packResponse { s with device := some d', request := a.request } a.response
          else { s with device := some d', request := a.request }) := by
    unfold recordSuccess
    rw [hcount]
    cases a.ok <;> rfl
  have haccepted : acceptedRequest fl resetOk s = some (translateBack
      (if a.ok then packResponse { s with device := some d', request := a.request } a.response
        else { s with device := some d', request := a.request }) a.ok) := by
    have hcomplete : completeRequest fl resetOk s false = forwardRequest fl resetOk s := rfl
    simp only [acceptedRequest, hswitch, Option.bind_eq_bind, Option.bind_some, hcomplete, hforward,
      hrecord]
  have hback (s' : Session) (ok : Bool) (h : s'.target.version = IG_PROTOCOL_VERSION) :
      translateBack s' ok = (s', ok) := by
    rw [translateBack, h, translateProtocol_current]
    rfl
  have hcheck : checkIncomingProtocol (s.device.map (·.idev.version))
      (s.setCode s.request.code).request false = some type := by
    rw [hdevice]
    exact htype
  have hsame : s.setCode s.request.code = s := rfl
  rw [handleClientRequest, htarget, translateProtocol_current]
  simp only [hcheck]
  rw [hsame, haccepted, hback]
  split_ifs
  · cases a.response <;> exact htarget
  · exact htarget

section

variable {d : Device} {block : List Byte}

/-- The type of a block of a newer device. -/
def blockType : PacketType := ⟨IG_DEV_WRITEBLOCK, CTL_TODEV, 68, true, 2⟩

def blockRequest (block : List Byte) : DataPacket := ⟨IG_DEV_WRITEBLOCK, 68, some block⟩

theorem checkIncomingProtocol_block {version : Version} (hversion : 0x200 ≤ version) :
    checkIncomingProtocol (some version) (blockRequest block) false = some blockType := by
  rw [checkIncomingProtocol, Option.getD_some, blockRequest, findTypeEntry_writeBlock hversion]
  rfl

/-- **The transaction of a block**: what it writes, and how it ends. -/
theorem deviceTransaction_answer (hversion : 0x200 ≤ d.idev.version) (hlen : block.length = 68)
    (hall : d.usb.outcome.failAt = none) :
    ∃ d' a, deviceTransaction fl d (blockRequest block) false = some (d', a) ∧ d.Keeps d' ∧
      a.request.code = IG_DEV_WRITEBLOCK ∧
      if d.usb.outcome.controlSent then
        a = ackAnswer blockType (blockRequest (addChecksum block)) d.usb.outcome.ack ∧
          d'.usb.wire = d.usb.wire ++ controlPacket IG_DEV_WRITEBLOCK (blockArguments block) ::
            sendPackets d.idev.maxPacketSize (block.drop 4) false
      else a.ok = false := by
  have htype := @checkIncomingProtocol_block block _ hversion
  have hstream : ¬hasDataStream IG_DEV_WRITEBLOCK := by decide
  have hcode := deviceCode_writeBlock hversion
  have hpin : IG_DEV_WRITEBLOCK ≠ IG_DEV_SETPINCONFIG := by decide
  rw [deviceTransaction_whole fl d hpin
    (show IG_DEV_WRITEBLOCK ≠ IG_DEV_GETPINCONFIG by decide)]
  have hprepare := @prepare_block fl (fun d => checkFeatures fl d UNKNOWN_FEATURES) d
    (blockRequest block) block rfl hcode hstream hpin hlen
  have husb : (forgetFeatures d IG_DEV_WRITEBLOCK).usb = d.usb := rfl
  cases hsent : d.usb.outcome.controlSent with
  | true =>
      obtain ⟨d', a, htransaction, hkeeps, -, hwire⟩ := @transaction_block fl
        (fun d => checkFeatures fl d UNKNOWN_FEATURES) d (blockRequest block) blockType block false
        htype rfl hcode hstream hpin hlen hsent hall
      have hanswer := transaction_answer htype hprepare husb hsent hall htransaction
      refine ⟨d', a, htransaction, hkeeps, ?_, ?_⟩
      · rw [hanswer]
        exact congrArg DataPacket.code (ackAnswer_request ..)
      · rw [if_pos rfl]
        exact ⟨hanswer, hwire⟩
  | false =>
      refine ⟨(forgetFeatures d IG_DEV_WRITEBLOCK).wrote [],
        ⟨false, blockRequest (addChecksum block), none⟩, ?_, ?_, rfl, ?_⟩
      · rw [wholeTransaction, transaction, htype]
        simp only [hprepare, Option.bind_eq_bind, Option.bind_some, transmit]
        rw [show (forgetFeatures d (blockRequest block).code).usb = d.usb from rfl, hsent]
        rfl
      · exact (forgetFeatures_keeps d _).trans (.wrote _ _)
      · rfl

theorem handleClientRequest_block {server : Server} {target : Client} {resetOk : Bool}
    (htarget : target.version = IG_PROTOCOL_VERSION) (hversion : 0x200 ≤ d.idev.version)
    (hlen : block.length = 68) (hall : d.usb.outcome.failAt = none) :
    ∃ s ok d', handleClientRequest fl resetOk ⟨server, some d, target, blockRequest block⟩ =
        some (s, ok) ∧ s.device = some d' ∧ d.Keeps d' ∧
      if d.usb.outcome.controlSent then
        clientReply s ok = (match d.usb.outcome.ack with
          | .reply pos => (acceptResponse blockType (blockRequest (addChecksum block)) pos).map
              (fun pos => ⟨IG_DEV_WRITEBLOCK, pos.dataLen, pos.data⟩)
          | _ => none) ∧
        d'.usb.wire = d.usb.wire ++ controlPacket IG_DEV_WRITEBLOCK (blockArguments block) ::
            sendPackets d.idev.maxPacketSize (block.drop 4) false
      else clientReply s ok = none := by
  obtain ⟨d', a, htransaction, hkeeps, hcode, hdone⟩ :=
    @deviceTransaction_answer fl d block hversion hlen hall
  have hforwards := @handleClientRequest_forwards fl resetOk
    ⟨server, some d, target, blockRequest block⟩ d d' blockType a rfl htarget
    (checkIncomingProtocol_block hversion) rfl htransaction hcode
    (show IG_DEV_WRITEBLOCK ≠ IG_DEV_RESET by decide)
    (show IG_DEV_WRITEBLOCK ≠ IG_DEV_RECVON by decide)
  refine ⟨_, _, d', hforwards, ?_, hkeeps, ?_⟩
  · split_ifs
    · cases a.response <;> rfl
    · rfl
  · by_cases hsent : d.usb.outcome.controlSent = true
    · rw [if_pos hsent] at hdone ⊢
      obtain ⟨ha, hwire⟩ := hdone
      refine ⟨?_, hwire⟩
      cases hack : d.usb.outcome.ack with
      | readError =>
          rw [ha, hack]
          rfl
      | timeout =>
          rw [ha, hack]
          rfl
      | reply pos =>
          rw [hack, ackAnswer] at ha
          dsimp only at ha ⊢
          cases haccept : acceptResponse blockType (blockRequest (addChecksum block)) pos with
          | none =>
              rw [haccept] at ha
              rw [ha]
              rfl
          | some pos =>
              rw [haccept] at ha
              rw [ha]
              rfl
    · rw [if_neg hsent] at hdone ⊢
      rw [hdone]
      rfl

end

/-! ### The whole exchange -/

/-- Is the page written? -/
def Writes (fault : Fault) (page magic : Byte) : Prop :=
  fault ≠ .unsent ∧ (magic = MAGIC_WRITE_BYTE ∨ 48 ≤ page.toNat)

instance (fault : Fault) (page magic : Byte) : Decidable (Writes fault page magic) :=
  inferInstanceAs (Decidable (_ ∧ _))

/-- What an exchange keeps of the rig. -/
structure Rig.Keeps (rig rig' : Rig) : Prop where
  version : rig'.device.idev.version = rig.device.idev.version
  ready : rig'.Ready

/-- **A block and its reply.**  The page holds the block exactly when the request came through and
the page may be written, and the client gets the checksum exactly when it gets the reply, too. -/
theorem exchange_block (hrecv : ProgramsPages recv) {target : Client} {fault : Fault}
    {rig rig' : Rig} {page magic c₁ c₂ : Byte} {bytes : List Byte} {reply : Option DataPacket}
    (htarget : target.version = IG_PROTOCOL_VERSION)
    (hversion : 0x200 ≤ rig.device.idev.version) (hready : rig.Ready) (hlen : bytes.length = 64)
    (h : DeviceExchange fl recv target fault (blockRequest ([page, magic, c₁, c₂] ++ bytes)) rig rig'
      reply) :
    rig.Keeps rig' ∧
    rig'.mcu.pageBytes = (if Writes fault page magic then
      Function.update rig.mcu.pageBytes page bytes else rig.mcu.pageBytes) ∧
    reply = (if fault = .intact ∧ Writes fault page magic then
      some ⟨IG_DEV_WRITEBLOCK, 2, some (sumBytes bytes)⟩ else none) := by
  obtain ⟨server, outcome, resetOk, disconnectOnEPipe, s, ok, hrequest, hdevice, rfl, hall, hsent,
    hmcu⟩ := h.exchanged
  have hblock : ([page, magic, c₁, c₂] ++ bytes).length = 68 := by
    rw [List.length_append, hlen]
    rfl
  obtain ⟨s', ok', d', hrequest', hdevice', hkeeps, hdone⟩ :=
    @handleClientRequest_block fl (rig.facing outcome) ([page, magic, c₁, c₂] ++ bytes) server target
      resetOk htarget hversion hblock hall
  obtain ⟨rfl, rfl⟩ := Prod.mk.inj (Option.some.inj (hrequest.symm.trans hrequest'))
  obtain rfl := Option.some.inj (hdevice.symm.trans hdevice')
  have hversion' : rig'.device.idev.version = rig.device.idev.version := hkeeps.version
  have houtcome : (rig.facing outcome).usb.outcome = outcome := rfl
  rw [houtcome, hsent] at hdone
  by_cases hunsent : fault = .unsent
  · subst hunsent
    rw [if_pos rfl] at hmcu
    rw [if_neg (show ¬(Fault.unsent != .unsent) = true by decide)] at hdone
    refine ⟨⟨hversion', ?_, ?_⟩, ?_, ?_⟩
    · rw [hmcu]
      exact hready.running
    · rw [hmcu]
      exact hready.out
    · rw [hmcu, if_neg (fun hw => hw.1 rfl)]
    · rw [hdone, if_neg (fun hw => hw.2.1 rfl)]
  · rw [if_neg hunsent] at hmcu
    rw [if_pos (bne_iff_ne.mpr hunsent)] at hdone
    obtain ⟨hreply, hwire⟩ := hdone
    obtain ⟨hfirmware, hack⟩ := hmcu
    obtain ⟨hne, hflat⟩ := sendPackets_page rig.device.idev.maxPacketSize bytes
      rig.device.idev.packetSize_pos
    obtain ⟨m₀, hm₀⟩ : ∃ m₀ : Mcu, m₀ = { rig.mcu with
      out := rig.mcu.out ++ rig'.device.usb.wire, sent := [] } := ⟨_, rfl⟩
    have hout : m₀.out = controlPacket IG_DEV_WRITEBLOCK ([page, magic] ++
        sumBytes (sendPackets rig.device.idev.maxPacketSize bytes false).flatten) ::
          (sendPackets rig.device.idev.maxPacketSize bytes false ++ []) := by
      rw [hm₀, hflat, List.append_nil]
      change rig.mcu.out ++ rig'.device.usb.wire = _
      rw [hready.out, hwire, blockArguments_eq hblock]
      rfl
    obtain ⟨m', hm', hqueue, hrun, hprogrammed⟩ := @ProgramsPages.programs _ hrecv m₀ _ _ _ []
      (by rw [hm₀]; exact hready.running) (by rw [List.append_nil]; exact hne)
      (by rw [hflat]; exact hlen) hout
    rw [← hm₀, hm'] at hfirmware
    obtain rfl := Option.some.inj hfirmware
    have hpages : m₀.pageBytes = rig.mcu.pageBytes := by
      rw [hm₀]
      rfl
    have hsent₀ : m₀.sent = [] := by rw [hm₀]
    rw [hflat, hpages, hsent₀] at hprogrammed
    rw [hack] at hreply
    have hsettings : 0x200 ≤ (rig.settings disconnectOnEPipe).version := hversion
    refine ⟨⟨hversion', hrun, hqueue⟩, ?_, ?_⟩
    · by_cases hopen : magic = MAGIC_WRITE_BYTE ∨ 48 ≤ page.toNat
      · rw [if_pos hopen] at hprogrammed
        rw [if_pos ⟨hunsent, hopen⟩, hprogrammed.1]
      · rw [if_neg hopen] at hprogrammed
        rw [if_neg (fun hw => hopen hw.2), hprogrammed.1]
    · rw [hreply]
      by_cases hopen : magic = MAGIC_WRITE_BYTE ∨ 48 ≤ page.toNat
      · rw [if_pos hopen] at hprogrammed
        have hdone := @readerResponse_single _ hsettings _ (sumBytes bytes) _
          (findTypeEntry_writeBlock hversion) rfl (.inr (Nat.le_refl 2))
        rw [hprogrammed.2, List.nil_append, hdone]
        cases fault with
        | intact => rw [if_pos ⟨rfl, hunsent, hopen⟩]; rfl
        | unsent => exact absurd rfl hunsent
        | unanswered => rfl
      · rw [if_neg hopen] at hprogrammed
        have herror := @readerResponse_single _ hsettings _ [] _
          (findTypeEntry_invalidArg hversion) rfl (.inl rfl)
        rw [List.append_nil] at herror
        rw [hprogrammed.2, List.nil_append, herror, if_neg (fun hw => hopen hw.2.2)]
        cases fault <;> rfl

/-- Every block can be exchanged. -/
theorem exchange_exists (hrecv : ProgramsPages recv) {target : Client} (fault : Fault) {rig : Rig}
    {page magic c₁ c₂ : Byte} {bytes : List Byte} (htarget : target.version = IG_PROTOCOL_VERSION)
    (hversion : 0x200 ≤ rig.device.idev.version) (hready : rig.Ready) (hlen : bytes.length = 64) :
    ∃ rig' reply, DeviceExchange fl recv target fault (blockRequest ([page, magic, c₁, c₂] ++ bytes)) rig
      rig' reply := by
  have hblock : ([page, magic, c₁, c₂] ++ bytes).length = 68 := by
    rw [List.length_append, hlen]
    rfl
  obtain ⟨hne, hflat⟩ := sendPackets_page rig.device.idev.maxPacketSize bytes
    rig.device.idev.packetSize_pos
  obtain ⟨wire, hwire⟩ : ∃ wire, wire = controlPacket IG_DEV_WRITEBLOCK ([page, magic] ++
    sumBytes bytes) :: sendPackets rig.device.idev.maxPacketSize bytes false := ⟨_, rfl⟩
  have hout : ({ rig.mcu with out := rig.mcu.out ++ wire, sent := [] } : Mcu).out =
      controlPacket IG_DEV_WRITEBLOCK ([page, magic] ++
        sumBytes (sendPackets rig.device.idev.maxPacketSize bytes false).flatten) ::
          (sendPackets rig.device.idev.maxPacketSize bytes false ++ []) := by
    rw [hflat, List.append_nil, hready.out, hwire]
    rfl
  obtain ⟨m', hm', -, -, -⟩ := @ProgramsPages.programs _ hrecv
    { rig.mcu with out := rig.mcu.out ++ wire, sent := [] } _ _ _ [] hready.running
    (by rw [List.append_nil]; exact hne) (by rw [hflat]; exact hlen) hout
  obtain ⟨outcome, houtcome⟩ : ∃ outcome : Outcome, outcome = ⟨fault != .unsent, none,
    fault.ack (readerResponse (rig.settings false) m'.sent), []⟩ := ⟨_, rfl⟩
  obtain ⟨s, ok, d', hrequest, hdevice, -, hdone⟩ :=
    @handleClientRequest_block fl (rig.facing outcome) ([page, magic, c₁, c₂] ++ bytes)
      ⟨false, []⟩ target false htarget hversion hblock (by rw [houtcome]; rfl)
  rw [show (rig.facing outcome).usb.outcome.controlSent = (fault != .unsent) by
    rw [houtcome]; rfl] at hdone
  refine ⟨⟨d', if fault = .unsent then rig.mcu else m'⟩, clientReply s ok, ⟨⟨false, []⟩, outcome,
    false, false, s, ok, hrequest, hdevice, rfl, by rw [houtcome], by rw [houtcome], ?_⟩⟩
  by_cases hunsent : fault = .unsent
  · rw [if_pos hunsent, if_pos hunsent]
  · rw [if_pos (bne_iff_ne.mpr hunsent)] at hdone
    rw [if_neg hunsent, if_neg hunsent]
    refine ⟨?_, by rw [houtcome]⟩
    change recv { rig.mcu with out := rig.mcu.out ++ d'.usb.wire, sent := [] } = some m'
    rw [hdone.2, blockArguments_eq hblock]
    rw [hwire] at hm'
    exact hm'

end IguanaIR
