import IguanaIR.ErrorReplies
import IguanaIR.LircDriver

/-! # The carrier that the driver remembers

The daemon keeps one carrier for each device, which `IG_DEV_SETCARRIER` sets and nothing else
changes (`listenStep_carrier`).  As long as no other client sets it, it is the one that the driver
remembers; `CarrierKnown` says what it is when another client does. -/

namespace IguanaIR

variable {fl : ℚ → ℚ}

/-! ### The carrier of the device -/

def Session.carrier (s : Session) : Option ℕ := s.device.map (·.idev.carrier.hz)

def Listener.carrier (l : Listener) : Option ℕ := l.device.map (·.idev.carrier.hz)

theorem Device.Keeps.carrier {d d' : Device} (h : d.Keeps d') :
    d'.idev.carrier = d.idev.carrier := by
  obtain ⟨features, cycles, hidev⟩ := h
  rw [hidev]

theorem SameDevice.carrier {d d' : Option Device} (h : SameDevice d d') :
    d'.map (·.idev.carrier.hz) = d.map (·.idev.carrier.hz) := by
  cases h with
  | none => rfl
  | some hkeeps => rw [Option.map_some, Option.map_some, hkeeps.carrier]

theorem replyString_device (s : Session) (string : Option CString) :
    (s.replyString string).device = s.device := by
  cases string <;> rfl

theorem recvOff_carrier {s : Session} {d : Device} (hd : s.device = some d) :
    (recvOff s d).1.carrier = s.carrier := by
  unfold recvOff
  dsimp only
  split_ifs
  · rw [Session.carrier, Session.carrier, hd]
    rfl
  · rfl

/-- The `switch` sets the carrier in one case only. -/
theorem switchRequest_carrier {s s' : Session} {ok : Bool}
    (hcode : s.request.code ≠ IG_DEV_SETCARRIER) (h : switchRequest fl s = some (s', ok)) :
    s'.carrier = s.carrier := by
  have hkept {d d₁ : Device} (hd : s.device = some d) (hk : d.Keeps d₁) {s₁ : Session}
      (hdevice : s₁.device = some d₁) : s₁.carrier = s.carrier := by
    rw [Session.carrier, Session.carrier, hd, hdevice, Option.map_some, Option.map_some, hk.carrier]
  cases switchRequest_cases h with
  | getFeatures hd _ hk =>
      cases ok with
      | true => exact hkept hd (checkFeatures_keeps hk) rfl
      | false => exact hkept hd (checkFeatures_keeps hk) rfl
  | recvOn hd _ => rfl
  | recvOff hd _ => exact recvOff_carrier hd
  | getChannels bytes hd _ hk => exact hkept hd (checkFeatures_keeps hk) rfl
  | @setChannels d d' slot channels hd _ hk =>
      have hcarrier : (s.setDevice d').carrier = s.carrier := hkept hd (checkFeatures_keeps hk) rfl
      exact hcarrier
  | setCarrier carrier hd hset => exact absurd hset hcode
  | replyString string _ => exact congrArg (Option.map _) (replyString_device s string)
  | send | exchVersions | readLabels | reply | forward => rfl

/-- Behind the `switch` nothing sets the carrier. -/
theorem acceptedRequest_switched {resetOk ok : Bool} {s s' : Session}
    (h : acceptedRequest fl resetOk s = some (s', ok)) :
    ∃ s₁ ok₁, switchRequest fl s = some (s₁, ok₁) ∧ s'.carrier = s₁.carrier := by
  simp only [acceptedRequest, Option.bind_eq_bind, Option.bind_eq_some_iff, Prod.exists] at h
  obtain ⟨s₁, ok₁, h₁, s₂, done, response, h₂, s₃, h₃, h₄⟩ := h
  have hforward : s₂.carrier = s₁.carrier := by
    unfold completeRequest at h₂
    split_ifs at h₂
    · obtain ⟨rfl, -⟩ := Prod.mk.inj (Option.some.inj h₂)
      rfl
    · exact (forwardRequest_keeps h₂).2.carrier
  have hrecord : s₃.carrier = s₂.carrier := by
    have hpack (s : Session) : (packResponse s response).carrier = s.carrier := by
      cases response <;> rfl
    unfold recordSuccess at h₃
    split_ifs at h₃
    · obtain ⟨s, hcount, rfl⟩ := Option.map_eq_some_iff.mp h₃
      rw [hpack]
      unfold countReceiver at hcount
      split_ifs at hcount
      · obtain ⟨d, hd, rfl⟩ := Option.map_eq_some_iff.mp hcount
        rw [Session.carrier, Session.carrier, hd]
        rfl
      · obtain rfl := Option.some.inj hcount
        rfl
    · obtain rfl := Option.some.inj h₃
      rfl
  have hback : s'.carrier = s₃.carrier := by
    have hs := congrArg Prod.fst (Option.some.inj h₄)
    unfold translateBack at hs
    split at hs <;>
    · subst hs
      rfl
  exact ⟨s₁, ok₁, h₁, by rw [hback, hrecord, hforward]⟩

theorem handleClientRequest_accepted {resetOk : Bool} {s : Session} {code : Byte}
    (h : acceptedCode s = some code) :
    handleClientRequest fl resetOk s = acceptedRequest fl resetOk (s.setCode code) := by
  obtain ⟨htranslate, type, hcheck⟩ := acceptedCode_some h
  simp only [handleClientRequest, htranslate, hcheck]

theorem handleClientRequest_refused {resetOk ok : Bool} {s s' : Session}
    (hcode : acceptedCode s = none) (h : handleClientRequest fl resetOk s = some (s', ok)) :
    ok = false ∧ s'.device = s.device := by
  unfold acceptedCode at hcode
  unfold handleClientRequest at h
  cases htranslate : translateProtocol s.request.code s.target.version false with
  | none =>
      simp only [htranslate] at h
      obtain ⟨rfl, rfl⟩ := Prod.mk.inj (Option.some.inj h)
      exact ⟨rfl, rfl⟩
  | some code =>
      simp only [htranslate, Option.map_eq_none_iff] at hcode h
      simp only [hcode] at h
      obtain ⟨rfl, rfl⟩ := Prod.mk.inj (Option.some.inj h)
      exact ⟨rfl, rfl⟩

/-- **A request sets the carrier** or leaves it alone; one that sets it succeeds. -/
theorem handleClientRequest_carrier {resetOk ok : Bool} {s s' : Session}
    (h : handleClientRequest fl resetOk s = some (s', ok)) :
    s'.carrier = s.carrier.map s.requestedCarrier.getD ∧
      (acceptedCode s = some IG_DEV_SETCARRIER → ok = true ∧ s.requestedCarrier.isSome) := by
  have hid (carrier : Option ℕ) : carrier.map (Option.getD none) = carrier := by
    cases carrier <;> rfl
  cases hcode : acceptedCode s with
  | none =>
      have hnone : s.requestedCarrier = none := by
        rw [Session.requestedCarrier, hcode]
        exact if_neg (by decide)
      obtain ⟨-, hdevice⟩ := handleClientRequest_refused hcode h
      rw [hnone, hid, Session.carrier, Session.carrier, hdevice]
      exact ⟨rfl, nofun⟩
  | some code =>
      rw [handleClientRequest_accepted hcode] at h
      obtain ⟨s₁, ok₁, hswitch, hcarrier⟩ := acceptedRequest_switched h
      by_cases hset : code = IG_DEV_SETCARRIER
      · subst hset
        have hdev : switchRequest fl (s.setCode IG_DEV_SETCARRIER) =
            s.device.bind (setCarrier (s.setCode IG_DEV_SETCARRIER)) := rfl
        have hswitch' := hswitch
        rw [hdev, Option.bind_eq_some_iff] at hswitch
        obtain ⟨d, hd, hswitch⟩ := hswitch
        simp only [setCarrier, Option.bind_eq_bind, Option.bind_eq_some_iff] at hswitch
        obtain ⟨bytes, hbytes, hs₁⟩ := hswitch
        obtain ⟨rfl, rfl⟩ := Prod.mk.inj (Option.some.inj hs₁)
        have hread : readBytes s.request.data 4 = some bytes := hbytes
        obtain ⟨done, hdone, hacc⟩ := acceptedRequest_spec h
        have hcompleted : done = true :=
          (completes_iff hswitch' rfl (show IG_DEV_SETCARRIER ≠ IG_DEV_RESET by decide) hdone).mpr
            (.inl rfl)
        have hold : s.carrier = some d.idev.carrier.hz := by
          rw [Session.carrier, hd, Option.map_some]
        rw [hcarrier, Session.requestedCarrier, if_pos hcode, hread, hold]
        exact ⟨rfl, fun _ => ⟨(accepted_ok hcode hdone hacc).mpr hcompleted, rfl⟩⟩
      · have hnone : s.requestedCarrier = none := by
          rw [Session.requestedCarrier, hcode]
          exact if_neg (fun hc => hset (Option.some.inj hc))
        rw [hcarrier, switchRequest_carrier hset hswitch, hnone, hid]
        exact ⟨rfl, fun hc => absurd (Option.some.inj hc) hset⟩

/-! ### The carrier behind an event -/

theorem releaseClient_carrier {l l' : Listener} {me : Client}
    (h : releaseClient fl l me = some l') : l'.carrier = l.carrier := by
  unfold releaseClient at h
  split_ifs at h
  · obtain ⟨d', hd', rfl⟩ := Option.map_eq_some_iff.mp h
    obtain ⟨d, hd, hdrop⟩ := Option.bind_eq_some_iff.mp hd'
    have hcarrier : d'.idev.carrier = d.idev.carrier := by
      unfold dropReceiver at hdrop
      dsimp only at hdrop
      split_ifs at hdrop
      · obtain ⟨⟨d₁, a⟩, ht, rfl⟩ := Option.map_eq_some_iff.mp hdrop
        exact (deviceTransaction_keeps ht).carrier
      · obtain rfl := Option.some.inj hdrop
        rfl
    rw [Listener.carrier, Listener.carrier, hd, Option.map_some, Option.map_some, hcarrier]
  · obtain rfl := Option.some.inj h
    rfl

theorem getID_carrier {server : Server} {d d' : Device} (h : getID fl server d = some d') :
    d'.idev.carrier = d.idev.carrier := by
  unfold getID at h
  dsimp only at h
  split_ifs at h
  · obtain rfl := Option.some.inj h
    rfl
  · simp only [readLabel, Option.bind_eq_bind, Option.bind_eq_some_iff, Prod.exists] at h
    obtain ⟨d₁, h₁, d₂, a, h₂, h⟩ := h
    have hdummy : d₁.idev.carrier = d.idev.carrier := by
      unfold dummyGetID at h₁
      split_ifs at h₁
      · obtain ⟨⟨d₃, a'⟩, ht, rfl⟩ := Option.map_eq_some_iff.mp h₁
        exact (deviceTransaction_keeps ht).carrier
      · obtain rfl := Option.some.inj h₁
        rfl
    have hread : d₂.idev.carrier = d.idev.carrier := (deviceTransaction_keeps h₂).carrier.trans hdummy
    split_ifs at h
    · obtain ⟨response, -, hs⟩ := Option.bind_eq_some_iff.mp h
      obtain ⟨label, -, rfl⟩ := Option.map_eq_some_iff.mp hs
      exact hread
    · obtain rfl := Option.some.inj h
      exact hread

theorem afterReply_carrier {l l' : Listener} {me : Client} {written : Bool} {code : Byte}
    (h : afterReply fl l me written code = some l') : l'.carrier = l.carrier := by
  unfold afterReply at h
  split_ifs at h
  · obtain ⟨d', hd', rfl⟩ := Option.map_eq_some_iff.mp h
    obtain ⟨d, hd, hget⟩ := Option.bind_eq_some_iff.mp hd'
    rw [Listener.carrier, Listener.carrier, hd, Option.map_some, Option.map_some,
      getID_carrier hget]
  · obtain rfl := Option.some.inj h
    rfl
  · exact releaseClient_carrier h

theorem handleClient_carrier {l l' : Listener} {me : Client} {input : ClientInput} {o : Output}
    (h : handleClient fl l me input = some (l', o)) :
    l'.carrier = l.carrier.map (requestedCarrier l me input).getD := by
  obtain ⟨hread, hrel, -⟩ | ⟨request, s, ok, frame, hread, hreq, -, hafter, -⟩ := handleClient_spec h
  · rw [releaseClient_carrier hrel, requestedCarrier, hread]
    cases l.carrier <;> rfl
  · rw [afterReply_carrier hafter, requestedCarrier, hread]
    exact (handleClientRequest_carrier hreq).1

/-- **Only `IG_DEV_SETCARRIER`** changes the carrier. -/
theorem listenStep_carrier {l l' : Listener} {e : Event} {o : Output}
    (h : listenStep fl l e = some (l', o)) :
    l'.carrier = l.carrier.map (eventCarrier l e).getD := by
  have hid : l.carrier.map (Option.getD none) = l.carrier := by
    cases l.carrier <;> rfl
  cases e with
  | connected fd =>
      obtain ⟨l₁, hconn, h⟩ := Option.map_eq_some_iff.mp h
      obtain ⟨rfl, -⟩ := Prod.mk.inj h
      unfold clientConnected at hconn
      split_ifs at hconn
      obtain rfl := Option.some.inj hconn
      exact hid.symm
  | readable fd input =>
      obtain ⟨me, hme, hclient⟩ := Option.bind_eq_some_iff.mp h
      rw [handleClient_carrier hclient, eventCarrier, hme, Option.bind_some]
  | queued packet =>
      obtain ⟨rfl, -⟩ := Prod.mk.inj (Option.some.inj h)
      exact hid.symm
  | fromReader written =>
      have h' : handleReader l written = some (l', o) := h
      unfold handleReader at h'
      cases hqueue : l.recvList with
      | nil =>
          rw [hqueue] at h'
          cases h'
      | cons packet rest =>
          rw [hqueue] at h'
          obtain ⟨r, -, h'⟩ := Option.map_eq_some_iff.mp h'
          obtain ⟨rfl, -⟩ := Prod.mk.inj h'
          exact hid.symm
  | otherThreads server =>
      obtain ⟨rfl, -⟩ := Prod.mk.inj (Option.some.inj h)
      exact hid.symm

/-! ### The requests of the driver -/

/-- Neither of the driver's codes is a code of protocol 0. -/
theorem acceptedCode_own {s : Session} {code : Byte} (h : s.request.code = code)
    (hown : code ∉ codeMap0.map Prod.snd) : acceptedCode s = none ∨ acceptedCode s = some code := by
  cases hcode : acceptedCode s with
  | none => exact .inl rfl
  | some code' =>
      obtain ⟨htranslate, -⟩ := acceptedCode_some hcode
      rw [h] at htranslate
      unfold translateProtocol at htranslate
      simp only [Bool.false_eq_true, if_false] at htranslate
      split_ifs at htranslate
      · exact .inr htranslate.symm
      · obtain ⟨p, hp, -⟩ := Option.map_eq_some_iff.mp htranslate
        have hcode : p.2 = code := by simpa using List.find?_some hp
        exact absurd (hcode ▸ List.mem_map_of_mem (List.mem_of_find?_eq_some hp)) hown

/-- `ntohl` behind `htonl`. -/
theorem htonlBytes_word (w : BitVec 32) :
    (htonlBytes w).getD 0 0 ++ (htonlBytes w).getD 1 0 ++ (htonlBytes w).getD 2 0 ++
      (htonlBytes w).getD 3 0 = w := by
  change w.extractLsb' 24 8 ++ w.extractLsb' 16 8 ++ w.extractLsb' 8 8 ++ w.extractLsb' 0 8 = w
  rw [BitVec.extractLsb'_append_extractLsb'_eq_extractLsb' (show 24 = 16 + 8 from rfl),
    BitVec.extractLsb'_append_extractLsb'_eq_extractLsb' (show 16 = 8 + 8 from rfl),
    BitVec.extractLsb'_append_extractLsb'_eq_extractLsb' (show 8 = 0 + 8 from rfl)]
  exact BitVec.extractLsb'_eq_self

/-- A frequency in range is not clamped. -/
theorem clampCarrier_inRange {freq : BitVec 32} (h : carrierInRange freq) :
    (clampCarrier freq).hz = freq.toNat := by
  obtain ⟨hlow, hhigh⟩ := h
  rw [clampCarrier_hz]
  omega

/-- The driver's request behind the event: what it did to the carrier, and what the driver is
told. -/
theorem ownRequest_spec {l l' : Listener} {fd : Fd} {input : ClientInput} {o : Output}
    {packet : DataPacket} (hread : readDataPacket input.arrival = some packet)
    (hown : packet.code ∉ codeMap0.map Prod.snd)
    (h : listenStep fl l (.readable fd input) = some (l', o)) :
    ∃ me ok, l.clients.find? (·.fd = fd) = some me ∧
      (∃ resetOk s, handleClientRequest fl resetOk (l.session me packet) = some (s, ok)) ∧
      l'.carrier = l.carrier.map (l.session me packet).requestedCarrier.getD ∧
      clientCode l me input = acceptedCode (l.session me packet) ∧
      ((acceptedCode (l.session me packet) = none ∧ o.request.any (·.2) = false) ∨
        (acceptedCode (l.session me packet) = some packet.code ∧ o.request.any (·.2) = ok)) := by
  obtain ⟨me, hme, hclient⟩ := Option.bind_eq_some_iff.mp h
  have hcarrier := handleClient_carrier hclient
  have hcode : clientCode l me input = acceptedCode (l.session me packet) := by
    rw [clientCode, hread, Option.bind_some]
  rw [requestedCarrier, hread, Option.bind_some] at hcarrier
  obtain ⟨hnone, -⟩ | ⟨request, s, ok, frame, hread', hreq, -, -, rfl⟩ := handleClient_spec hclient
  · rw [hread] at hnone
    cases hnone
  obtain rfl := Option.some.inj (hread.symm.trans hread')
  refine ⟨me, ok, hme, ⟨_, s, hreq⟩, hcarrier, hcode, ?_⟩
  obtain hrefused | haccepted := acceptedCode_own (s := l.session me packet) rfl hown
  · obtain ⟨rfl, -⟩ := handleClientRequest_refused hrefused hreq
    refine .inl ⟨hrefused, ?_⟩
    cases translateProtocol packet.code me.version false <;> rfl
  · have htranslate : translateProtocol packet.code me.version false = some packet.code :=
      (acceptedCode_some haccepted).1
    refine .inr ⟨haccepted, ?_⟩
    rw [htranslate]
    rfl

/-! ### What the driver remembers -/

/-- The carrier that the device has, as far as the driver and the record of the others say. -/
def LircRun.expected (r : LircRun) : Option ℕ :=
  r.foreign.or
    (if carrierInRange r.driver.currentCarrier then some r.driver.currentCarrier.toNat else none)

/-- As long as the driver is connected the expected carrier is the device's, and a signal that is
sent with its carrier set has the frequency that the driver remembers. -/
structure CarrierKnown (r : LircRun) : Prop where
  known : r.driver.sendConn ≠ none → ∀ hz ∈ r.expected, ∀ hz' ∈ r.listener.carrier, hz' = hz
  setting : ∀ freq igsignals, r.driver.pc = .setCarrier freq igsignals → carrierInRange freq
  sending : ∀ freq igsignals, r.driver.pc = .send freq igsignals true → carrierInRange freq →
    r.driver.currentCarrier = freq

theorem start_known (l : Listener) (fd : Fd) : CarrierKnown (.start l fd) := by
  have hrange : ¬carrierInRange (LircDriver.start fd).currentCarrier := by
    change ¬carrierInRange (-1)
    decide
  refine ⟨fun _ hz hhz => ?_, nofun, nofun⟩
  rw [LircRun.expected, LircRun.start, if_neg hrange] at hhz
  cases hhz

/-- The program counter behind the carrier. -/
theorem sendBuffer_send {freq freq' : BitVec 32} {carrierSet set : Bool}
    {igsignals : Option (List (BitVec 32))} {words : List (BitVec 32)}
    (h : LircDriver.sendBuffer freq carrierSet igsignals = .send freq' words set) :
    freq = freq' ∧ carrierSet = set := by
  cases igsignals with
  | none => cases h
  | some _ =>
      obtain ⟨rfl, -, rfl⟩ := SendPc.send.inj h
      exact ⟨rfl, rfl⟩

theorem sendBuffer_ne_setCarrier {freq freq' : BitVec 32} {carrierSet : Bool}
    {igsignals igsignals' : Option (List (BitVec 32))} :
    LircDriver.sendBuffer freq carrierSet igsignals ≠ .setCarrier freq' igsignals' := by
  cases igsignals <;> exact SendPc.noConfusion

/-! ### One step -/

theorem iguanaSend_known {r : LircRun} {d : LircDriver} {freq : BitVec 32}
    {igsignals : Option (List (BitVec 32))} (h : CarrierKnown r)
    (hsend : r.driver.iguanaSend freq igsignals = some d) : CarrierKnown { r with driver := d } := by
  unfold LircDriver.iguanaSend at hsend
  split_ifs at hsend with hidle hset
  · obtain rfl := Option.some.inj hsend
    refine ⟨h.known, fun freq' words hpc => ?_, fun freq' words hpc => ?_⟩
    · obtain ⟨rfl, -⟩ := SendPc.setCarrier.inj hpc
      exact hset.2
    · cases hpc
  · obtain rfl := Option.some.inj hsend
    refine ⟨h.known, fun freq' words hpc => absurd hpc sendBuffer_ne_setCarrier,
      fun freq' words hpc hrange => ?_⟩
    -- the carrier was not set because it is the one that the driver remembers
    obtain ⟨rfl, -⟩ := sendBuffer_send hpc
    by_contra hne
    exact hset ⟨Ne.symm hne, hrange⟩

theorem unwritten_known {r : LircRun} (h : CarrierKnown r) :
    CarrierKnown { r with driver := r.driver.finish false } := by
  cases hpc : r.driver.pc with
  | idle =>
      have hsame : r.driver.finish false = r.driver := by rw [LircDriver.finish, hpc]
      rw [hsame]
      exact h
  | setCarrier freq igsignals =>
      have hdriver : r.driver.finish false =
          { r.driver with pc := LircDriver.sendBuffer freq false igsignals } := by
        rw [LircDriver.finish, hpc]
        rfl
      rw [hdriver]
      refine ⟨h.known, fun _ _ hpc => absurd hpc sendBuffer_ne_setCarrier, fun _ _ hpc _ => ?_⟩
      cases (sendBuffer_send hpc).2
  | send freq igsignals carrierSet =>
      have hdriver : r.driver.finish false = { r.driver with pc := .idle } := by
        rw [LircDriver.finish, hpc]
      rw [hdriver]
      exact ⟨h.known, nofun, nofun⟩

theorem other_known {r : LircRun} {e : Event} {l : Listener} {o : Output} (h : CarrierKnown r)
    (hstep : listenStep fl r.listener e = some (l, o)) :
    CarrierKnown { r with listener := l, foreign := (eventCarrier r.listener e).or r.foreign } := by
  refine ⟨fun hconn hz hhz hz' hhz' => ?_, h.setting, h.sending⟩
  have hcarrier := listenStep_carrier hstep
  change hz' ∈ l.carrier at hhz'
  rw [hcarrier] at hhz'
  obtain ⟨hz₀, hold, rfl⟩ := Option.map_eq_some_iff.mp hhz'
  cases hset : eventCarrier r.listener e with
  | none =>
      rw [hset] at hhz
      exact h.known hconn hz hhz hz₀ hold
  | some hz₁ =>
      rw [hset] at hhz
      exact Option.some.inj hhz

/-- The daemon handles the driver's `IG_DEV_SETCARRIER`. -/
theorem setCarrier_handled {r : LircRun} {fd : Fd} {input : ClientInput} {l : Listener} {o : Output}
    {freq : BitVec 32} {igsignals : Option (List (BitVec 32))} (h : CarrierKnown r)
    (hconn : r.driver.sendConn = some fd) (hpc : r.driver.pc = .setCarrier freq igsignals)
    (hread : readDataPacket input.arrival =
      some ⟨IG_DEV_SETCARRIER, 4, some (htonlBytes freq)⟩)
    (hstep : listenStep fl r.listener (.readable fd input) = some (l, o)) :
    CarrierKnown (r.answered input l o) := by
  have hrange := h.setting freq igsignals hpc
  have hdriver (retval : Bool) : r.driver.finish retval = { r.driver with
      currentCarrier := if retval then freq else r.driver.currentCarrier
      pc := LircDriver.sendBuffer freq retval igsignals } := by
    rw [LircDriver.finish, hpc]
  obtain ⟨me, ok, -, ⟨resetOk, s, hreq⟩, hcarrier, -, hresult⟩ :=
    ownRequest_spec hread (show IG_DEV_SETCARRIER ∉ codeMap0.map Prod.snd by decide) hstep
  unfold LircRun.answered
  rw [hpc]
  dsimp only
  rw [hdriver]
  obtain ⟨hrefused, hno⟩ | ⟨haccepted, hok⟩ := hresult
  · -- refused: nothing has changed
    rw [hno, Bool.and_false]
    refine ⟨fun hopen hz hhz hz' hhz' => ?_, fun _ _ hpc => absurd hpc sendBuffer_ne_setCarrier,
      fun _ _ hpc _ => ?_⟩
    · have hsame : l.carrier = r.listener.carrier := by
        rw [hcarrier, Session.requestedCarrier, hrefused, if_neg (by decide)]
        cases r.listener.carrier <;> rfl
      change hz' ∈ l.carrier at hhz'
      rw [hsame] at hhz'
      exact h.known (by rw [hconn]; exact Option.some_ne_none fd) hz hhz hz' hhz'
    · cases (sendBuffer_send hpc).2
  · have hdone := (handleClientRequest_carrier hreq).2 haccepted
    rw [hok, hdone.1, Bool.and_true]
    have hset : (r.listener.session me ⟨IG_DEV_SETCARRIER, 4, some (htonlBytes freq)⟩).requestedCarrier =
        some freq.toNat := by
      rw [Session.requestedCarrier, if_pos haccepted]
      have hbytes : readBytes (some (htonlBytes freq)) 4 = some (htonlBytes freq) := rfl
      change (readBytes (some (htonlBytes freq)) 4).map _ = _
      rw [hbytes, Option.map_some, htonlBytes_word, clampCarrier_inRange hrange]
    cases hwritten : input.written with
    | false =>
        refine ⟨fun hopen => absurd rfl hopen, fun _ _ hpc => absurd hpc sendBuffer_ne_setCarrier,
          fun _ _ hpc _ => ?_⟩
        cases (sendBuffer_send hpc).2
    | true =>
        refine ⟨fun _ hz hhz hz' hhz' => ?_, fun _ _ hpc => absurd hpc sendBuffer_ne_setCarrier,
          fun freq' words hpc _ => ?_⟩
        · have hnow : hz = freq.toNat := by
            have hexpected : some freq.toNat = some hz := by
              rw [← hhz]
              change _ = (none : Option ℕ).or (if carrierInRange freq then some freq.toNat else none)
              rw [if_pos hrange]
              rfl
            exact (Option.some.inj hexpected).symm
          change hz' ∈ l.carrier at hhz'
          rw [hcarrier, hset] at hhz'
          obtain ⟨hz₀, -, rfl⟩ := Option.map_eq_some_iff.mp hhz'
          exact hnow.symm
        · exact (sendBuffer_send hpc).1

/-- The daemon handles the driver's `IG_DEV_SEND`. -/
theorem send_handled {r : LircRun} {fd : Fd} {input : ClientInput} {l : Listener} {o : Output}
    {freq : BitVec 32} {igsignals : List (BitVec 32)} {carrierSet : Bool} (h : CarrierKnown r)
    (hconn : r.driver.sendConn = some fd) (hpc : r.driver.pc = .send freq igsignals carrierSet)
    {packet : DataPacket} (hcode : packet.code = IG_DEV_SEND)
    (hread : readDataPacket input.arrival = some packet)
    (hstep : listenStep fl r.listener (.readable fd input) = some (l, o)) :
    CarrierKnown (r.answered input l o) ∧
      ((∀ e ∈ r.encoded fd input, e.Right) ↔ SameCarrier r (.handled input)) := by
  obtain ⟨me, ok, hme, ⟨resetOk, s, hreq⟩, hcarrier, hclient, hresult⟩ :=
    ownRequest_spec hread (by rw [hcode]; decide) hstep
  have hopen : r.driver.sendConn ≠ none := by
    rw [hconn]
    exact Option.some_ne_none fd
  constructor
  · have hsame : l.carrier = r.listener.carrier := by
      have hnot : acceptedCode (r.listener.session me packet) ≠ some IG_DEV_SETCARRIER := by
        obtain ⟨hnone, -⟩ | ⟨hsome, -⟩ := hresult
        · rw [hnone]
          decide
        · rw [hsome, hcode]
          decide
      rw [hcarrier, Session.requestedCarrier, if_neg hnot]
      cases r.listener.carrier <;> rfl
    have hdriver (retval : Bool) : r.driver.finish retval = { r.driver with pc := .idle } := by
      rw [LircDriver.finish, hpc]
    unfold LircRun.answered
    rw [hpc]
    dsimp only
    rw [hdriver]
    refine ⟨fun _ hz hhz hz' hhz' => ?_, nofun, nofun⟩
    change hz' ∈ l.carrier at hhz'
    rw [hsame] at hhz'
    exact h.known hopen hz hhz hz' hhz'
  · have hencodes : r.encodes fd input =
        if acceptedCode (r.listener.session me packet) = some IG_DEV_SEND then some (freq, carrierSet)
        else none := by
      rw [LircRun.encodes, hpc, hme, Option.bind_some, hclient]
    simp only [LircRun.encoded, SameCarrier, hconn, Option.mem_some_iff, forall_eq', hencodes]
    obtain ⟨hrefused, -⟩ | ⟨haccepted, -⟩ := hresult
    · have hnot : acceptedCode (r.listener.session me packet) ≠ some IG_DEV_SEND := by
        rw [hrefused]
        decide
      simp [if_neg hnot]
    · rw [hcode] at haccepted
      obtain ⟨d, hd⟩ : ∃ d, r.listener.device = some d := by
        rw [handleClientRequest_accepted haccepted] at hreq
        obtain ⟨done, hdone, -⟩ := acceptedRequest_spec hreq
        exact completes_device (s := (r.listener.session me packet).setCode IG_DEV_SEND) rfl hdone
      have hhz : d.idev.carrier.hz ∈ r.listener.carrier := by
        rw [Listener.carrier, hd]
        rfl
      simp only [if_pos haccepted, hd, Option.bind_eq_bind, Option.bind_some, Option.mem_some_iff,
        forall_eq', Encoded.Right]
      -- what the device has is what the others have set, or what the driver remembers
      constructor
      · intro hright hset hrange hz hforeign
        have hexpected : hz ∈ r.expected := by
          rw [LircRun.expected, hforeign]
          rfl
        rw [← h.known hopen hz hexpected _ hhz]
        exact hright hset hrange
      · intro hothers hset hrange
        subst hset
        cases hforeign : r.foreign with
        | none =>
            have hremembers := h.sending freq igsignals hpc hrange
            apply h.known hopen _ _ _ hhz
            rw [LircRun.expected, hforeign, hremembers, if_pos hrange]
            rfl
        | some hz =>
            have hexpected : hz ∈ r.expected := by
              rw [LircRun.expected, hforeign]
              rfl
            rw [h.known hopen hz hexpected _ hhz]
            exact hothers rfl hrange hz hforeign

/-- **One step** keeps the carrier known, and encodes a signal for the right frequency where no
other client has last set another. -/
theorem lircStep_known {r r' : LircRun} {e : LircEvent} {o : Option Encoded} (h : CarrierKnown r)
    (hstep : lircStep fl r e = some (r', o)) :
    CarrierKnown r' ∧ ((∀ x ∈ o, x.Right) ↔ SameCarrier r e) := by
  have hnone : (∀ x ∈ (none : Option Encoded), x.Right) ↔ True := by simp
  cases e with
  | iguanaSend freq igsignals =>
      obtain ⟨d, hd, hstep⟩ := Option.map_eq_some_iff.mp hstep
      obtain ⟨rfl, rfl⟩ := Prod.mk.inj hstep
      exact ⟨iguanaSend_known h hd, hnone⟩
  | unwritten =>
      obtain ⟨packet, -, hstep⟩ := Option.map_eq_some_iff.mp hstep
      obtain ⟨rfl, rfl⟩ := Prod.mk.inj hstep
      exact ⟨unwritten_known h, hnone⟩
  | other e =>
      simp only [lircStep] at hstep
      split_ifs at hstep
      obtain ⟨⟨l, out⟩, hlisten, hstep⟩ := Option.map_eq_some_iff.mp hstep
      obtain ⟨rfl, rfl⟩ := Prod.mk.inj hstep
      exact ⟨other_known h hlisten, hnone⟩
  | handled input =>
      simp only [lircStep, Option.bind_eq_bind, Option.bind_eq_some_iff] at hstep
      obtain ⟨fd, hconn, packet, hwritten, hstep⟩ := hstep
      split_ifs at hstep with hread
      obtain ⟨⟨l, out⟩, hlisten, hstep⟩ := Option.map_eq_some_iff.mp hstep
      obtain ⟨rfl, rfl⟩ := Prod.mk.inj hstep
      cases hpc : r.driver.pc with
      | idle =>
          rw [LircDriver.written, hpc] at hwritten
          cases hwritten
      | setCarrier freq igsignals =>
          rw [LircDriver.written, hpc] at hwritten
          obtain rfl := Option.some.inj hwritten
          refine ⟨setCarrier_handled h hconn hpc hread hlisten, ?_⟩
          simp [LircRun.encoded, LircRun.encodes, SameCarrier, hpc]
      | send freq igsignals carrierSet =>
          rw [LircDriver.written, hpc] at hwritten
          have hcode : packet.code = IG_DEV_SEND := by rw [← Option.some.inj hwritten]
          exact send_handled h hconn hpc hcode hread hlisten

/-- What stands in `Encoded.carrier` is the carrier that the `switch` encodes the signal for. -/
theorem encoded_switch {r : LircRun} {fd : Fd} {input : ClientInput} {x : Encoded}
    (h : r.encoded fd input = some x) :
    ∃ me packet d, r.listener.clients.find? (·.fd = fd) = some me ∧
      readDataPacket input.arrival = some packet ∧ r.listener.device = some d ∧
      let s := (r.listener.session me packet).setCode IG_DEV_SEND
      switchRequest fl s = sendRequest fl s d ∧
        encodedSignal fl s d =
          (sendCode packet).map (pulsesToIguanaSend fl x.carrier · (compressVersion (some d))) := by
  simp only [LircRun.encoded, Option.bind_eq_bind, Option.bind_eq_some_iff] at h
  obtain ⟨⟨freq, carrierSet⟩, hencodes, d, hd, hx⟩ := h
  obtain rfl := Option.some.inj hx
  unfold LircRun.encodes at hencodes
  split at hencodes
  · split_ifs at hencodes with hcode
    obtain ⟨me, hme, hcode⟩ := Option.bind_eq_some_iff.mp hcode
    obtain ⟨packet, hread, -⟩ := Option.bind_eq_some_iff.mp hcode
    refine ⟨me, packet, d, hme, hread, hd, ?_, rfl⟩
    have hswitch (s : Session) (hs : s.request.code = IG_DEV_SEND) (hdevice : s.device = some d) :
        switchRequest fl s = sendRequest fl s d := by
      unfold switchRequest deviceCases
      rw [hs, hdevice]
      rfl
    exact hswitch _ rfl hd
  · cases hencodes

/-- A worker to which the driver and another client are connected. -/
def sharedWorker : Listener where
  server := ⟨false, []⟩
  device := some (startWorker 8 eight_pos ⟨0, ascii "0", none, none⟩ (1, 2) 0x0309
    ⟨[⟨true, none, .reply ⟨IG_DEV_SEND, 0, some []⟩, []⟩,
      ⟨true, none, .reply ⟨IG_DEV_SEND, 0, some []⟩, []⟩], []⟩)
  recvList := []
  clients := [⟨5, 0, IG_PROTOCOL_VERSION⟩, ⟨6, 0, IG_PROTOCOL_VERSION⟩]

def setCarrierInput (freq : BitVec 32) : ClientInput :=
  ⟨.whole IG_DEV_SETCARRIER 4 (htonlBytes freq), 0, true, true⟩

def emptySendInput : ClientInput := ⟨.whole IG_DEV_SEND 0 [], 0, true, true⟩

/-- `iguana_send` for a remote at 38 kHz. -/
def sendAt38 : LircEvent := .iguanaSend 38000 (some [])

/-- The driver sets the carrier and sends; then it sends again without setting the carrier, which
another client has set to `freq` in between. -/
def carrierChanged (freq : BitVec 32) : List LircEvent :=
  [sendAt38, .handled (setCarrierInput 38000), .handled emptySendInput,
    .other (.readable 6 (setCarrierInput freq)), sendAt38, .handled emptySendInput]

end IguanaIR
