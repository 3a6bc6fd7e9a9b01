import IguanaIR.DeviceCommands
import IguanaIR.ReceiverCount
import IguanaIR.ReplyCodes

/-! # Requests that fail

What a request leaves behind whose reply is `IG_DEV_ERROR`.  A code that the daemon takes can
always be translated back, so such a request was refused or its device transaction failed.  The
`switch` prepares the transaction without touching the state, but for `IG_DEV_RECVOFF`: that takes
the client and the count out of the books before the device has answered. -/

namespace IguanaIR

variable {fl : ℚ → ℚ}

/-- What a client can set of a device. -/
def Device.settings (d : Device) :
    BitVec 32 × Carrier × Byte × Option CString × Option CString :=
  (d.idev.receiverCount, d.idev.carrier, d.idev.channels, d.idev.names.locAlias,
    d.idev.names.userAlias)

/-- Clients and device are as they were. -/
structure Unchanged (l l' : Listener) : Prop where
  clients : l'.clients = l.clients
  device : l'.device.map Device.settings = l.device.map Device.settings

/-- A request to stop finds nothing to stop. -/
def NothingToStop (l : Listener) (me : Client) (input : ClientInput) : Prop :=
  clientCode l me input = some IG_DEV_RECVOFF →
    me.receiving = 0 ∧ ∀ d ∈ l.device, d.idev.receiverCount = 0

theorem Device.Keeps.settings {d d' : Device} (h : d.Keeps d') : d'.settings = d.settings := by
  obtain ⟨features, cycles, hidev⟩ := h
  unfold Device.settings
  rw [hidev]

/-! ### Every success can be told -/

theorem Completes.unique {resetOk done done' : Bool} {s : Session}
    (h : Completes fl resetOk s done) (h' : Completes fl resetOk s done') : done = done' := by
  obtain ⟨s₁, ok₁, s₂, response, hswitch, hcomplete⟩ := h
  obtain ⟨s₁', ok₁', s₂', response', hswitch', hcomplete'⟩ := h'
  rw [hswitch] at hswitch'
  obtain ⟨rfl, rfl⟩ := Prod.mk.inj (Option.some.inj hswitch')
  rw [hcomplete] at hcomplete'
  exact (Prod.mk.inj (Prod.mk.inj (Option.some.inj hcomplete')).2).1

/-- A request that is completed is answered with its code: the code that it ends with is known to
the client. -/
theorem accepted_ok {resetOk done ok : Bool} {s s' : Session} {code : Byte}
    (hcode : acceptedCode s = some code) (hdone : Completes fl resetOk (s.setCode code) done)
    (hacc : Accepted (s.setCode code) s' done ok) : ok = true ↔ done = true := by
  by_cases hexch : code = IG_EXCH_VERSIONS
  · subst hexch
    apply hacc.ok_iff
    have hfinal (version : Option Version) :
        finalCode version IG_EXCH_VERSIONS = IG_EXCH_VERSIONS :=
      forwardedCode_of_not_pinConfig (by decide) (by decide)
    change (translateProtocol (finalCode _ IG_EXCH_VERSIONS) _ true).isSome = true
    rw [hfinal, translateProtocol_exch]
    rfl
  by_cases hren : ∃ d, s.device = some d ∧ renamable d.idev.version code
  · obtain ⟨d, hd, hren⟩ := hren
    exact (accepted_renamed hcode hren hd hacc).1
  · apply accepted_ok_iff hcode hacc hexch
    apply finalCode_of_not_renamable
    · rintro rfl
      exact completes_device (s := s.setCode IG_DEV_RAWRECVON) rfl hdone
    · exact fun d hd hr => hren ⟨d, hd, hr⟩

/-- No request has the code of an error. -/
theorem acceptedCode_ne_error {s : Session} {code : Byte} (h : acceptedCode s = some code) :
    code ≠ IG_DEV_ERROR := by
  have hrows : ∀ t ∈ types, t.type.code ≠ IG_DEV_ERROR := by decide
  rintro rfl
  obtain ⟨-, type, hcheck⟩ := acceptedCode_some h
  unfold checkIncomingProtocol at hcheck
  split at hcheck
  · cases hcheck
  · next type' hentry =>
      obtain ⟨hcode, t, ht, rfl⟩ := findTypeEntry_some hentry
      exact hrows t ht hcode

/-- Both protocols have the same code for errors. -/
theorem translateProtocol_error {version : Version} {code : Byte}
    (h : translateProtocol IG_DEV_ERROR version false = some code) : code = IG_DEV_ERROR := by
  obtain rfl | rfl | hlt := version_cases version
  · rw [translateProtocol_current] at h
    exact (Option.some.inj h).symm
  · have hzero : translateProtocol IG_DEV_ERROR 0 false = some IG_DEV_ERROR := by decide
    rw [hzero] at h
    exact (Option.some.inj h).symm
  · rw [translateProtocol_unknown hlt IG_DEV_ERROR false (by decide)] at h
    cases h

/-- **A reply is an error** when the request failed, and only then. -/
theorem replyPacket_error {resetOk ok : Bool} {s s' : Session} (errno : ℕ)
    (h : handleClientRequest fl resetOk s = some (s', ok)) :
    (replyPacket ok s'.request errno).code = IG_DEV_ERROR ↔ ok = false := by
  constructor
  · intro herror
    apply Bool.eq_false_iff.mpr
    rintro rfl
    have hsame : s'.request.code = IG_DEV_ERROR := herror
    obtain ⟨-, hok, -⟩ | ⟨code, done, hcode, hdone, hacc⟩ := handleClientRequest_spec h
    · cases hok
    by_cases hren : ∃ d, s.device = some d ∧ renamable d.idev.version code
    · obtain ⟨d, hd, hren⟩ := hren
      exact (accepted_renamed hcode hren hd hacc).2 rfl (.inr hsame)
    · have hfinal : finalCode (s.device.map (·.idev.version)) code = code := by
        apply finalCode_of_not_renamable
        · rintro rfl
          exact completes_device (s := s.setCode IG_DEV_RAWRECVON) rfl hdone
        · exact fun d hd hr => hren ⟨d, hd, hr⟩
      rw [accepted_code hcode hacc hfinal] at hsame
      have htranslate := (acceptedCode_some hcode).1
      rw [hsame] at htranslate
      exact acceptedCode_ne_error hcode (translateProtocol_error htranslate)
  · rintro rfl
    rfl

/-! ### What a failed request changes -/

/-- Only what is known about the features of the device may have changed. -/
def SameDevice (d d' : Option Device) : Prop := Option.Rel Device.Keeps d d'

theorem SameDevice.refl (d : Option Device) : SameDevice d d := by
  cases d with
  | none => exact .none
  | some d => exact .some (.refl d)

theorem SameDevice.trans {d₁ d₂ d₃ : Option Device} (h : SameDevice d₁ d₂)
    (h' : SameDevice d₂ d₃) : SameDevice d₁ d₃ := by
  cases h with
  | none => exact h'
  | some hkeeps =>
      cases h' with
      | some hkeeps' => exact .some (hkeeps.trans hkeeps')

theorem SameDevice.settings {d d' : Option Device} (h : SameDevice d d') :
    d'.map Device.settings = d.map Device.settings := by
  cases h with
  | none => rfl
  | some hkeeps => exact congrArg some hkeeps.settings

/-- A request that the `switch` does not finish, besides one to stop, leaves client and device
alone. -/
theorem switchRequest_unfinished {s s' : Session} (h : switchRequest fl s = some (s', false))
    (hoff : s.request.code ≠ IG_DEV_RECVOFF) :
    s'.target = s.target ∧ SameDevice s.device s'.device := by
  have hcase := switchRequest_cases h
  generalize hok : false = ok at hcase
  cases hcase with
  | getFeatures hd hcode hk =>
      rw [← hok, if_neg Bool.false_ne_true, hd]
      exact ⟨rfl, .some (checkFeatures_keeps hk)⟩
  | recvOn hd hcode => exact ⟨rfl, .refl _⟩
  | recvOff hd hcode => exact absurd hcode hoff
  | send dataLen data hd hcode => exact ⟨rfl, .refl _⟩
  | forward hcode => exact ⟨rfl, .refl _⟩
  | getChannels | setChannels | setCarrier | exchVersions | readLabels | reply | replyString =>
      cases hok

/-- A request to stop takes the client and one receiver out of the books. -/
theorem switchRequest_recvOff {s s' : Session} {ok : Bool}
    (h : switchRequest fl (s.setCode IG_DEV_RECVOFF) = some (s', ok)) :
    s'.target = { s.target with receiving := 0 } ∧ s'.device = s.device.map withoutReceiver := by
  have hdev : switchRequest fl (s.setCode IG_DEV_RECVOFF) =
      s.device.bind (fun d => some (recvOff (s.setCode IG_DEV_RECVOFF) d)) := rfl
  rw [hdev, Option.bind_eq_some_iff] at h
  obtain ⟨d, hd, h⟩ := h
  have hs : s' = (recvOff (s.setCode IG_DEV_RECVOFF) d).1 :=
    (congrArg Prod.fst (Option.some.inj h)).symm
  rw [hs, hd, Option.map_some, recvOff, withoutReceiver]
  split_ifs
  · exact ⟨rfl, rfl⟩
  · exact ⟨rfl, hd⟩

theorem forwardRequest_keeps {resetOk ok : Bool} {s s' : Session} {response : Option DataPacket}
    (h : forwardRequest fl resetOk s = some (s', ok, response)) :
    s'.target = s.target ∧ SameDevice s.device s'.device := by
  unfold forwardRequest at h
  cases hd : s.device with
  | none =>
      rw [hd] at h
      obtain ⟨rfl, -⟩ := Prod.mk.inj (Option.some.inj h)
      rw [hd]
      exact ⟨rfl, .none⟩
  | some d =>
      rw [hd] at h
      simp only [Option.bind_eq_bind, Option.bind_eq_some_iff, Prod.exists] at h
      obtain ⟨d', a, ht, h⟩ := h
      have hkeeps := deviceTransaction_keeps ht
      split_ifs at h
      · obtain ⟨rfl, -⟩ := Prod.mk.inj (Option.some.inj h)
        exact ⟨rfl, .some hkeeps⟩
      · obtain ⟨rfl, -⟩ := Prod.mk.inj (Option.some.inj h)
        exact ⟨rfl, .some hkeeps⟩

/-- What a request leaves behind that fails: one to stop has taken the client and one receiver out
of the books, any other one has changed nothing. -/
def LeftBehind (s s' : Session) : Prop :=
  if acceptedCode s = some IG_DEV_RECVOFF then
    s'.target = { s.target with receiving := 0 } ∧
      SameDevice (s.device.map withoutReceiver) s'.device
  else s'.target = s.target ∧ SameDevice s.device s'.device

/-- An accepted request that fails was not finished by the `switch`, nor by the device. -/
theorem acceptedRequest_failed {resetOk : Bool} {s s' : Session} {code : Byte}
    (hcode : acceptedCode s = some code)
    (h : acceptedRequest fl resetOk (s.setCode code) = some (s', false)) :
    ∃ s₁ s₂ response, switchRequest fl (s.setCode code) = some (s₁, false) ∧
      forwardRequest fl resetOk s₁ = some (s₂, false, response) ∧
      s'.target = s₂.target ∧ s'.device = s₂.device := by
  obtain ⟨done, hdone, hacc⟩ := acceptedRequest_spec h
  have hfail : done = false := by
    cases hd : done with
    | false => rfl
    | true => exact absurd ((accepted_ok hcode hdone hacc).mpr hd) Bool.false_ne_true
  simp only [acceptedRequest, Option.bind_eq_bind, Option.bind_eq_some_iff, Prod.exists] at h
  obtain ⟨s₁, ok₁, h₁, s₂, done', response, h₂, s₃, h₃, h₄⟩ := h
  obtain rfl : done' = false := (Completes.unique ⟨s₁, ok₁, s₂, response, h₁, h₂⟩ hdone).trans hfail
  obtain rfl := Option.some.inj h₃
  unfold completeRequest at h₂
  split_ifs at h₂ with hok
  · cases h₂
  rw [Bool.eq_false_iff.mpr hok] at h₁
  refine ⟨s₁, s₂, response, h₁, h₂, ?_⟩
  have hback := congrArg Prod.fst (Option.some.inj h₄)
  unfold translateBack at hback
  split at hback <;>
  · subst hback
    exact ⟨rfl, rfl⟩

theorem handleClientRequest_failed {resetOk : Bool} {s s' : Session}
    (h : handleClientRequest fl resetOk s = some (s', false)) : LeftBehind s s' := by
  unfold LeftBehind
  unfold handleClientRequest at h
  cases htranslate : translateProtocol s.request.code s.target.version false with
  | none =>
      have hcode : acceptedCode s = none := by rw [acceptedCode, htranslate]
      simp only [htranslate] at h
      obtain ⟨rfl, -⟩ := Prod.mk.inj (Option.some.inj h)
      rw [hcode]
      exact ⟨rfl, .refl _⟩
  | some code =>
      simp only [htranslate] at h
      cases hcheck : checkIncomingProtocol (s.device.map (·.idev.version)) (s.setCode code).request
          false with
      | none =>
          have hcode : acceptedCode s = none := by
            simp only [acceptedCode, htranslate, hcheck, Option.map_none]
          simp only [hcheck] at h
          obtain ⟨rfl, -⟩ := Prod.mk.inj (Option.some.inj h)
          rw [hcode]
          exact ⟨rfl, .refl _⟩
      | some type =>
          have hcode : acceptedCode s = some code := by
            simp only [acceptedCode, htranslate, hcheck, Option.map_some]
          simp only [hcheck] at h
          obtain ⟨s₁, s₂, response, hswitch, hforward, htarget, hdevice⟩ :=
            acceptedRequest_failed hcode h
          obtain ⟨htarget₂, hdevice₂⟩ := forwardRequest_keeps hforward
          rw [hcode, htarget, hdevice, htarget₂]
          by_cases hoff : code = IG_DEV_RECVOFF
          · subst hoff
            rw [if_pos rfl]
            obtain ⟨htarget₁, hdevice₁⟩ := switchRequest_recvOff hswitch
            rw [← hdevice₁]
            exact ⟨htarget₁, hdevice₂⟩
          · rw [if_neg (fun hc => hoff (Option.some.inj hc))]
            obtain ⟨htarget₁, hdevice₁⟩ := switchRequest_unfinished hswitch hoff
            exact ⟨htarget₁, hdevice₁.trans hdevice₂⟩

/-! ### The error reply -/

theorem updateClient_self {clients : List Client} {me : Client} (hd : Distinct clients)
    (hme : me ∈ clients) : updateClient clients me = clients := by
  obtain ⟨before, after, hall, -, hnew⟩ := split_client hd hme
  rw [hnew me rfl, hall]

/-- A changed client shows in the list. -/
theorem updateClient_eq_self {clients : List Client} {me me' : Client} (hd : Distinct clients)
    (hme : me ∈ clients) (hfd : me'.fd = me.fd) :
    updateClient clients me' = clients ↔ me' = me := by
  obtain ⟨before, after, hall, -, hnew⟩ := split_client hd hme
  rw [hnew me' hfd, hall]
  constructor
  · intro heq
    exact (List.cons.inj (List.append_cancel_left heq)).1
  · rintro rfl
    rfl

/-- One receiver less is a change unless there was none. -/
theorem withoutReceiver_settings (d : Device) :
    (withoutReceiver d).settings = d.settings ↔ d.idev.receiverCount = 0 := by
  unfold withoutReceiver
  split_ifs with hcount
  · have hne : d.idev.receiverCount - 1 ≠ d.idev.receiverCount := by bv_omega
    have hpos : d.idev.receiverCount ≠ 0 := by bv_omega
    exact iff_of_false (fun heq => hne (Prod.mk.inj heq).1) hpos
  · exact iff_of_true rfl (by bv_omega)

/-- A frame that is an error is the reply to a request which failed. -/
theorem error_frame {l l' : Listener} {me : Client} {input : ClientInput} {o : Output} {fd : Fd}
    {frame : Frame} (h : handleClient fl l me input = some (l', o)) (hframe : (fd, frame) ∈ o.frames)
    (herror : frame.code = IG_DEV_ERROR) :
    ∃ request s, readDataPacket input.arrival = some request ∧
      handleClientRequest fl input.resetOk (l.session me request) = some (s, false) ∧
      l' = l.behind s := by
  obtain ⟨-, -, rfl⟩ | ⟨request, s, ok, frame', hread, hreq, hmake, hafter, rfl⟩ :=
    handleClient_spec h
  · cases hframe
  have hwritten : input.written = true := by
    by_contra hnot
    rw [if_neg hnot] at hframe
    cases hframe
  rw [if_pos hwritten, List.mem_singleton] at hframe
  obtain ⟨-, rfl⟩ := Prod.mk.inj hframe
  have hcode : (replyPacket ok s.request input.errno).code = IG_DEV_ERROR := by
    rw [← DataPacket.frame_code hmake]
    exact herror
  obtain rfl := (replyPacket_error input.errno hreq).mp hcode
  refine ⟨request, s, hread, hreq, ?_⟩
  have hset : IG_DEV_ERROR ≠ IG_DEV_SETID := by decide
  rw [hcode, afterReply, if_pos hwritten, if_neg hset] at hafter
  exact (Option.some.inj hafter).symm

/-- Behind a request that fails all is as it was, unless it was to stop and took something out of
the books. -/
theorem failed_unchanged {l : Listener} {me : Client} {input : ClientInput} {request : DataPacket}
    {s : Session} (hd : Distinct l.clients) (hme : me ∈ l.clients)
    (hread : readDataPacket input.arrival = some request)
    (h : handleClientRequest fl input.resetOk (l.session me request) = some (s, false)) :
    Unchanged l (l.behind s) ↔ NothingToStop l me input := by
  have hleft := handleClientRequest_failed h
  unfold LeftBehind at hleft
  have hcode : clientCode l me input = acceptedCode (l.session me request) := by
    rw [clientCode, hread, Option.bind_some]
  unfold NothingToStop
  rw [hcode]
  split_ifs at hleft with hoff
  · obtain ⟨htarget, hdevice⟩ := hleft
    have htarget' : s.target = { me with receiving := 0 } := htarget
    have hmode : updateClient l.clients s.target = l.clients ↔ me.receiving = 0 := by
      have hfd : ({ me with receiving := 0 } : Client).fd = me.fd := rfl
      rw [htarget', updateClient_eq_self hd hme hfd]
      constructor
      · exact fun heq => (congrArg Client.receiving heq).symm
      · intro hzero
        rw [← hzero]
    have hcount : s.device.map Device.settings = l.device.map Device.settings ↔
        ∀ d ∈ l.device, d.idev.receiverCount = 0 := by
      have hdevice' : s.device.map Device.settings =
          (l.device.map withoutReceiver).map Device.settings := hdevice.settings
      rw [hdevice']
      cases l.device with
      | none => simp
      | some d => simp [withoutReceiver_settings]
    rw [← hmode, ← hcount]
    constructor
    · exact fun hsame _ => ⟨hsame.clients, hsame.device⟩
    · intro hsame
      obtain ⟨hclients, hdev⟩ := hsame hoff
      exact ⟨hclients, hdev⟩
  · obtain ⟨htarget, hdevice⟩ := hleft
    apply iff_of_true
    · constructor
      · have htarget' : s.target = me := htarget
        change updateClient l.clients s.target = l.clients
        rw [htarget']
        exact updateClient_self hd hme
      · exact hdevice.settings
    · exact fun hstop => absurd hstop hoff

/-- **An error reply leaves the daemon unchanged** in every state that a worker reaches, unless the
request was one to stop that found something to stop. -/
theorem error_unchanged_iff {l₀ l l' : Listener} {es : List Event} {os : List Output} {fd : Fd}
    {input : ClientInput} {o : Output} {frame : Frame} (hstart : l₀.clients = [])
    (hrun : Transition.run (listenStep fl) l₀ es = some (l, os))
    (h : listenStep fl l (.readable fd input) = some (l', o)) (hframe : (fd, frame) ∈ o.frames)
    (herror : frame.code = IG_DEV_ERROR) :
    Unchanged l l' ↔ ∀ me ∈ l.clients.find? (·.fd = fd), NothingToStop l me input := by
  have hd : Distinct l.clients := run_distinct hstart hrun
  obtain ⟨me, hfind, hclient⟩ := Option.bind_eq_some_iff.mp h
  obtain ⟨request, s, hread, hreq, rfl⟩ := error_frame hclient hframe herror
  rw [failed_unchanged hd (find_client hfind).1 hread hreq, hfind]
  simp

/-- A request that the device does not answer: the wait for it ends with a time-out. -/
def unanswered (code : Byte) : ClientInput := ⟨.whole code 0 [], 110, false, true⟩

/-- Behind a request for the pins that the device does not answer. -/
theorem error_unchanged_pins : ∃ l os l' o frame,
    Transition.run (listenStep Binary64.nearest) receivingWorker receivingEvents = some (l, os) ∧
    listenStep Binary64.nearest l (.readable 3 (unanswered IG_DEV_GETPINS)) = some (l', o) ∧
    (3, frame) ∈ o.frames ∧ frame.code = IG_DEV_ERROR ∧
    (Unchanged l l' ↔
      ∀ me ∈ l.clients.find? (·.fd = 3), NothingToStop l me (unanswered IG_DEV_GETPINS)) := by
  obtain ⟨⟨l, os⟩, hrun⟩ : ∃ r, Transition.run (listenStep Binary64.nearest) receivingWorker
    receivingEvents = some r := ⟨_, rfl⟩
  obtain ⟨l', o, frame, h, hframe, herror⟩ : ∃ l' o frame, listenStep Binary64.nearest l
      (.readable 3 (unanswered IG_DEV_GETPINS)) = some (l', o) ∧ (3, frame) ∈ o.frames ∧
      frame.code = IG_DEV_ERROR := by
    obtain ⟨rfl, -⟩ := Prod.mk.inj (Option.some.inj hrun)
    exact ⟨_, _, _, rfl, List.mem_singleton_self _, rfl⟩
  exact ⟨l, os, l', o, frame, hrun, h, hframe, herror,
    error_unchanged_iff rfl hrun h hframe herror⟩

/-- A receiver asks to stop, the device does not answer, and the error finds the client and the
count at zero. -/
theorem error_unchanged_differs : ∃ l os l' o frame,
    Transition.run (listenStep Binary64.nearest) receivingWorker receivingEvents = some (l, os) ∧
    listenStep Binary64.nearest l (.readable 3 (unanswered IG_DEV_RECVOFF)) = some (l', o) ∧
    (3, frame) ∈ o.frames ∧ frame.code = IG_DEV_ERROR ∧
    l.clients.map (·.receiving) = [IG_DEV_RECVON] ∧ l'.clients.map (·.receiving) = [0] ∧
    l.device.map (·.idev.receiverCount) = some 1 ∧ l'.device.map (·.idev.receiverCount) = some 0 ∧
    ¬Unchanged l l' := by
  refine ⟨_, _, _, _, _, rfl, rfl, List.mem_singleton_self _, rfl, rfl, rfl, rfl, rfl, ?_⟩
  intro hsame
  exact absurd (congrArg (List.map (·.receiving)) hsame.clients) (by decide)

end IguanaIR
