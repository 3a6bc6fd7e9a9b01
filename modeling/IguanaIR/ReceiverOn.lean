import IguanaIR.DeviceCommands
import IguanaIR.ReceiverCount
import IguanaIR.ReplyCodes

/-! # The receiver of the device

The listener together with the receiver of its device, which `IG_DEV_RECVON` turns on and
`IG_DEV_RECVOFF` and `IG_DEV_RESET` turn off, and with the clients that are listening: those whose
last request to receive or to stop was one to receive, and succeeded.

The daemon decides by its own count whether the device is asked to turn the receiver on or off.
Others change the receiver behind the count: a reset does, and a client that asks to stop without
receiving takes another one's place in the count.  `KeepsListening` says of an event and the state
that it finds that neither happens to a client which goes on to listen. -/

namespace IguanaIR

variable (fl : ℚ → ℚ)

/-! ### The receiver -/

structure Receiver where
  listener : Listener
  /-- The device's receiver flag. -/
  on : Bool
  /-- Whose last request to receive or to stop was one to receive, and succeeded. -/
  asked : List Fd

/-- Who is listening: those of them that are connected. -/
def Receiver.listening (r : Receiver) : List Fd :=
  r.asked.filter (r.listener.clients.map (·.fd)).contains

/-- The receiver behind a transaction. -/
def switchReceiver (on : Bool) (c : Command) : Bool :=
  if c.2 = true ∧ c.1 = IG_DEV_RECVON then true
  else if c.2 = true ∧ turnsOff c.1 then false
  else on

def stopAsking (fd : Fd) (asked : List Fd) : List Fd := asked.filter (· ≠ fd)

/-- Who has asked behind a request with this code and this success. -/
def nowAsked (fd : Fd) (request : Option (Byte × Bool)) (asked : List Fd) : List Fd :=
  match request with
  | none => asked
  | some (code, ok) =>
      if startsReceiving code ∧ ok = true then fd :: stopAsking fd asked
      else if startsReceiving code ∨ code = IG_DEV_RECVOFF then stopAsking fd asked
      else asked

/-- A client that comes has not asked yet. -/
def eventAsked (asked : List Fd) (o : Output) : Event → List Fd
  | .connected fd => stopAsking fd asked
  | .readable fd _ => nowAsked fd o.request asked
  | _ => asked

def receiverStep (r : Receiver) (e : Event) : Option (Receiver × Output) :=
  (listenStep fl r.listener e).map (fun (l, o) =>
    (⟨l, (eventCommands fl r.listener e).foldl switchReceiver r.on, eventAsked r.asked o e⟩, o))

/-- The state behind a readable client. -/
def Receiver.behind (r : Receiver) (me : Client) (input : ClientInput) (l' : Listener)
    (o : Output) : Receiver :=
  ⟨l', (clientCommands fl r.listener me input).foldl switchReceiver r.on,
    nowAsked me.fd o.request r.asked⟩

/-- A worker that nobody has asked for anything. -/
def Receiver.start (l : Listener) (on : Bool) : Receiver := ⟨l, on, []⟩

/-- While somebody listens the receiver is on. -/
def Receiver.Heard (r : Receiver) : Prop := r.listening ≠ [] → r.on = true

/-- No transaction fails. -/
def Answered (r : Receiver) (e : Event) : Prop := ∀ c ∈ eventCommands fl r.listener e, c.2 = true

/-- No transaction turns off the receiver of a client that goes on to listen, and a request to
receive is not granted while the receiver is off. -/
def SparesListeners (r : Receiver) (me : Client) (input : ClientInput) : Prop :=
  (∀ c ∈ clientCommands fl r.listener me input, turnsOff c.1 → ∀ fd ∈ r.listening, fd = me.fd ∧
    ¬(c.1 = IG_DEV_RESET ∧ (readDataPacket input.arrival).isSome ∧ input.written = true)) ∧
  ∀ request ∈ readDataPacket input.arrival,
    ∀ code ∈ acceptedCode (r.listener.session me request), input.written = true →
      startsReceiving code → ∀ d ∈ r.listener.device, 0 < d.idev.receiverCount → r.on = true

/-! The same in terms of the client, its request and the count. -/

/-- A client only resets the device, or stops it as the last of the books, where nobody goes on to
listen. -/
def StopsAlone (r : Receiver) (me : Client) (input : ClientInput) (d : Device) : Prop :=
  ∀ code ∈ clientCode r.listener me input, stopsReceiver d.idev.receiverCount code →
    ∀ fd ∈ r.listening, fd = me.fd ∧ (code = IG_DEV_RESET → input.written = false)

/-- A client only goes as the last of the books where nobody else listens. -/
def LeavesAlone (r : Receiver) (me : Client) (input : ClientInput) (d : Device) : Prop :=
  ¬((readDataPacket input.arrival).isSome = true ∧ input.written = true) →
    releaseStops d.idev.receiverCount me (clientCode r.listener me input) →
      ∀ fd ∈ r.listening, fd = me.fd

/-- Whoever asks to receive while the count is positive finds the receiver on. -/
def FindsReceiver (r : Receiver) (me : Client) (input : ClientInput) (d : Device) : Prop :=
  ∀ code ∈ clientCode r.listener me input, input.written = true → startsReceiving code →
    0 < d.idev.receiverCount → r.on = true

def KeepsReceiver (r : Receiver) (me : Client) (input : ClientInput) (d : Device) : Prop :=
  StopsAlone r me input d ∧ LeavesAlone r me input d ∧ FindsReceiver r me input d

def KeepsListening (r : Receiver) : Event → Prop
  | .readable fd input => ∀ me ∈ r.listener.clients.find? (·.fd = fd), ∀ d ∈ r.listener.device,
      KeepsReceiver r me input d
  | _ => True

instance : DecidableRel (Answered fl) := fun _ _ => inferInstanceAs (Decidable (∀ c ∈ _, _))

instance (r : Receiver) (me : Client) (input : ClientInput) (d : Device) :
    Decidable (StopsAlone r me input d) := inferInstanceAs (Decidable (∀ code ∈ _, _))

instance (r : Receiver) (me : Client) (input : ClientInput) (d : Device) :
    Decidable (LeavesAlone r me input d) := inferInstanceAs (Decidable (¬_ → _ → ∀ fd ∈ _, _))

instance (r : Receiver) (me : Client) (input : ClientInput) (d : Device) :
    Decidable (FindsReceiver r me input d) := inferInstanceAs (Decidable (∀ code ∈ _, _))

instance (r : Receiver) (me : Client) (input : ClientInput) (d : Device) :
    Decidable (KeepsReceiver r me input d) := inferInstanceAs (Decidable (_ ∧ _ ∧ _))

instance : DecidableRel KeepsListening
  | r, .readable fd input => inferInstanceAs (Decidable (
      ∀ me ∈ r.listener.clients.find? (·.fd = fd), ∀ d ∈ r.listener.device,
        KeepsReceiver r me input d))
  | _, .connected _ | _, .queued _ | _, .fromReader _ | _, .otherThreads _ => isTrue trivial

variable {fl}

/-! ### The receiver behind an event -/

theorem switchReceiver_offs {commands : List Command} (hoff : ∀ c ∈ commands, turnsOff c.1)
    (hok : ∀ c ∈ commands, c.2 = true) (on : Bool) :
    commands.foldl switchReceiver on = (on && commands.isEmpty) := by
  induction commands generalizing on with
  | nil => simp
  | cons c commands ih =>
      have hturn := hoff c (List.mem_cons_self ..)
      have hon : c.1 ≠ IG_DEV_RECVON := by
        rcases hturn with h | h <;> rw [h] <;> decide
      have hc : switchReceiver on c = false := by
        unfold switchReceiver
        rw [if_neg (fun h => hon h.2), if_pos ⟨hok c (List.mem_cons_self ..), hturn⟩]
      rw [List.foldl_cons, hc, ih (fun c' h => hoff c' (List.mem_cons_of_mem _ h))
        (fun c' h => hok c' (List.mem_cons_of_mem _ h))]
      simp

/-- A receiver that nothing turns off stays on. -/
theorem switchReceiver_stays {commands : List Command} (hoff : ∀ c ∈ commands, ¬turnsOff c.1) :
    commands.foldl switchReceiver true = true := by
  induction commands with
  | nil => rfl
  | cons c commands ih =>
      have hc : switchReceiver true c = true := by
        unfold switchReceiver
        rw [if_neg (fun h : c.2 = true ∧ turnsOff c.1 => hoff c (List.mem_cons_self ..) h.2)]
        exact ite_self _
      rw [List.foldl_cons, hc]
      exact ih (fun c' h => hoff c' (List.mem_cons_of_mem _ h))

/-- Only `IG_DEV_RECVOFF` and `IG_DEV_RESET` turn a receiver off that is on. -/
theorem switchReceiver_on {c : Command} (hok : c.2 = true) :
    switchReceiver true c = true ↔ ¬turnsOff c.1 := by
  have hnot : ¬turnsOff IG_DEV_RECVON := by decide
  unfold switchReceiver
  by_cases hon : c.1 = IG_DEV_RECVON
  · simp [hok, hon, hnot]
  · simp [hok, hon]

theorem mem_stopAsking {fd fd' : Fd} {asked : List Fd} :
    fd' ∈ stopAsking fd asked ↔ fd' ∈ asked ∧ fd' ≠ fd := by
  simp [stopAsking]

/-- A request says nothing of other clients. -/
theorem mem_nowAsked_of_ne {fd fd' : Fd} {request : Option (Byte × Bool)} {asked : List Fd}
    (h : fd' ≠ fd) : fd' ∈ nowAsked fd request asked ↔ fd' ∈ asked := by
  unfold nowAsked
  split
  · rfl
  · split_ifs <;> simp [mem_stopAsking, h]

/-- A request that fails lets nobody listen. -/
theorem nowAsked_refused (fd : Fd) (code : Option Byte) (asked : List Fd) :
    nowAsked fd (code.map (·, false)) asked ⊆ asked := by
  intro fd' hfd
  cases code with
  | none => exact hfd
  | some code =>
      simp only [Option.map_some, nowAsked, Bool.false_eq_true, and_false, if_false] at hfd
      split_ifs at hfd
      · exact (mem_stopAsking.mp hfd).1
      · exact hfd

theorem mem_listening {r : Receiver} {fd : Fd} :
    fd ∈ r.listening ↔ fd ∈ r.asked ∧ fd ∈ r.listener.clients.map (·.fd) := by
  unfold Receiver.listening
  rw [List.mem_filter, List.contains_iff_mem]

/-- Where nobody listens that did not listen before, and the receiver stays on. -/
theorem Receiver.Heard.subset {r r' : Receiver} (h : r.Heard) (hsub : r'.listening ⊆ r.listening)
    (hon : r.on = true → r'.on = true) : r'.Heard := by
  intro hne
  apply hon
  apply h
  intro hnil
  rw [hnil] at hsub
  exact hne (List.subset_nil.mp hsub)

theorem eventCommands_readable {l : Listener} {me : Client} (input : ClientInput)
    (hme : l.clients.find? (·.fd = me.fd) = some me) :
    eventCommands fl l (.readable me.fd input) = clientCommands fl l me input := by
  simp [eventCommands, hme]

/-- The receiver stays on for others when nothing turns it off. -/
theorem keeps_others {r : Receiver} {fd' : Fd} {me : Client} {input : ClientInput} {l' : Listener}
    {o : Output} (hon : r.on = true)
    (hfd : fd' ∈ r.listening) (hne : fd' ≠ me.fd)
    (hans : ∀ c ∈ clientCommands fl r.listener me input, c.2 = true)
    (h : handleClient fl r.listener me input = some (l', o)) :
    (r.behind fl me input l' o).Heard ↔ SparesListeners fl r me input := by
  have hlistens : fd' ∈ (r.behind fl me input l' o).listening := by
    obtain ⟨hasked, hclient⟩ := mem_listening.mp hfd
    apply mem_listening.mpr
    constructor
    · exact (mem_nowAsked_of_ne hne).mpr hasked
    · exact (handleClient_fds h fd').mpr ⟨hclient, fun heq => absurd heq hne⟩
  have hheard : (r.behind fl me input l' o).Heard ↔
      (clientCommands fl r.listener me input).foldl switchReceiver r.on = true := by
    constructor
    · intro hheard
      exact hheard (List.ne_nil_of_mem hlistens)
    · exact fun hon _ => hon
  have hkeeps : SparesListeners fl r me input ↔
      ∀ c ∈ clientCommands fl r.listener me input, ¬turnsOff c.1 := by
    constructor
    · rintro ⟨hoff, -⟩ c hc hturn
      exact hne (hoff c hc hturn fd' hfd).1
    · intro hnone
      exact ⟨fun c hc hturn => absurd hturn (hnone c hc), fun _ _ _ _ _ _ _ _ _ => hon⟩
  rw [hheard, hkeeps, hon]
  obtain ⟨request, release, hsplit, hoff, hrequest, -⟩ := clientCommands_split fl r.listener me input
  rw [hsplit] at hans ⊢
  have hrelease := switchReceiver_offs (fun c hc => .inl (hoff c hc))
    (fun c hc => hans c (List.mem_append_right _ hc))
  have hnone : (∀ c ∈ release, ¬turnsOff c.1) ↔ release = [] := by
    constructor
    · intro h
      cases release with
      | nil => rfl
      | cons c release =>
          have hc := h c (List.mem_cons_self ..)
          rw [hoff c (List.mem_cons_self ..)] at hc
          exact absurd (.inl rfl) hc
    · rintro rfl
      exact nofun
  rw [List.foldl_append, hrelease, Bool.and_eq_true, List.isEmpty_iff, List.forall_mem_append, hnone]
  apply and_congr_left'
  obtain rfl | ⟨packet, code, ok, -, -, rfl⟩ := hrequest
  · simp
  · have hok := hans (switchedCode code, ok) (by simp)
    simp only [List.foldl_cons, List.foldl_nil, List.mem_singleton, forall_eq]
    exact switchReceiver_on hok

/-- A request to receive that is accepted succeeds when the receiver is on already or the device
turns it on. -/
theorem startsReceiving_ok {resetOk done ok : Bool} {s s' : Session} {d : Device} {code : Byte}
    (hcode : acceptedCode s = some code) (hstart : startsReceiving code) (hd : s.device = some d)
    (hdone : Completes fl resetOk (s.setCode code) done)
    (hacc : Accepted (s.setCode code) s' done ok) : ok = true ↔ recvOnSucceeds fl s d := by
  rw [← completes_recvOn hstart hd hdone]
  obtain rfl | rfl := hstart
  · exact accepted_ok_iff hcode hacc (by decide) (startsReceiving_iff.mpr (.inl rfl))
  · exact (accepted_renamed hcode (.inl rfl) hd hacc).1

/-- A readable client, beside which nobody listens. -/
structure Alone (fl : ℚ → ℚ) (r : Receiver) (me : Client) (input : ClientInput) (l' : Listener)
    (o : Output) : Prop where
  client : r.listener.clients.find? (·.fd = me.fd) = some me
  heard : r.Heard
  alone : ∀ fd ∈ r.listening, fd = me.fd
  answered : ∀ c ∈ clientCommands fl r.listener me input, c.2 = true
  step : handleClient fl r.listener me input = some (l', o)

namespace Alone

variable {r : Receiver} {me : Client} {input : ClientInput} {l' : Listener} {o : Output}

/-- A client that goes leaves nobody who listens. -/
theorem gone (h : Alone fl r me input l' o)
    (hgone : ¬((readDataPacket input.arrival).isSome = true ∧ input.written = true)) :
    (r.behind fl me input l' o).Heard ↔ SparesListeners fl r me input := by
  apply iff_of_true
  · intro hne
    obtain ⟨fd, hfd⟩ := List.exists_mem_of_ne_nil _ hne
    obtain ⟨hasked, hclient⟩ := mem_listening.mp hfd
    obtain ⟨hold, hstays⟩ := (handleClient_fds h.step fd).mp hclient
    have hother : fd ≠ me.fd := fun heq => hgone (hstays heq)
    have hlistens := mem_listening.mpr ⟨(mem_nowAsked_of_ne hother).mp hasked, hold⟩
    exact absurd (h.alone fd hlistens) hother
  · constructor
    · intro c _ _ fd hfd
      exact ⟨h.alone fd hfd, fun hreset => hgone hreset.2⟩
    · intro request hread code _ hwritten
      exact absurd ⟨by rw [Option.mem_def.mp hread]; rfl, hwritten⟩ hgone

variable {request : DataPacket} {s : Session} {ok : Bool} {frames : List (Fd × Frame)}
  {code : Byte}

/-- Who listens behind a request that is answered. -/
theorem mem_behind (h : Alone fl r me input l' o)
    (hread : readDataPacket input.arrival = some request) (hwritten : input.written = true)
    {fd : Fd} : fd ∈ (r.behind fl me input l' o).listening ↔
      fd ∈ nowAsked me.fd o.request r.asked ∧ fd ∈ r.listener.clients.map (·.fd) := by
  rw [mem_listening]
  apply and_congr_right'
  have hfds := handleClient_fds h.step fd
  rw [hread, hwritten] at hfds
  exact hfds.trans (and_iff_left (fun _ => ⟨rfl, rfl⟩))

/-- Behind a request that lets nobody listen it is a matter of the receiver. -/
theorem heard_of_subset (h : Alone fl r me input l' o)
    (hread : readDataPacket input.arrival = some request) (hwritten : input.written = true)
    (hsub : nowAsked me.fd o.request r.asked ⊆ r.asked)
    (hon : r.on = true → (r.behind fl me input l' o).on = true) :
    (r.behind fl me input l' o).Heard := by
  refine h.heard.subset ?_ hon
  intro fd hfd
  obtain ⟨hasked, hclient⟩ := (h.mem_behind hread hwritten).mp hfd
  exact mem_listening.mpr ⟨hsub hasked, hclient⟩

/-- A request to receive. -/
theorem starting (h : Alone fl r me input l' ⟨some (code, ok), frames⟩)
    (hread : readDataPacket input.arrival = some request) (hwritten : input.written = true)
    (hcommands : clientCommands fl r.listener me input =
      requestCommands fl (r.listener.session me request))
    (hreq : handleClientRequest fl input.resetOk (r.listener.session me request) = some (s, ok))
    (hcode : acceptedCode (r.listener.session me request) = some code)
    (hstart : startsReceiving code) :
    (r.behind fl me input l' ⟨some (code, ok), frames⟩).Heard ↔
      SparesListeners fl r me input := by
  obtain ⟨hnone, -⟩ | ⟨code', done, hcode', hdone, hacc⟩ := handleClientRequest_spec hreq
  · rw [hcode] at hnone
    cases hnone
  obtain rfl := Option.some.inj (hcode.symm.trans hcode')
  have hneeds : needsDevice code = true := by
    obtain rfl | rfl := hstart <;> rfl
  obtain ⟨d, hd⟩ := completes_device (s := (r.listener.session me request).setCode code) hneeds hdone
  have hdevice : r.listener.device = some d := hd
  obtain ⟨hidle, hasked⟩ := requestCommands_recvOn hcode hstart hd hreq
  have hbehind : (r.behind fl me input l' ⟨some (code, ok), frames⟩).on =
    (requestCommands fl (r.listener.session me request)).foldl switchReceiver r.on :=
      congrArg (List.foldl switchReceiver r.on) hcommands
  have hanswered := h.answered
  rw [SparesListeners, hcommands, hread]
  rw [hcommands] at hanswered
  simp only [Option.mem_some_iff, forall_eq', hcode, hwritten, hdevice, hstart, true_implies]
  by_cases hcount : 0 < d.idev.receiverCount
  · -- the device is not asked, and the client listens
    have hok : ok = true := (startsReceiving_ok hcode hstart hd hdone hacc).mpr (.inl hcount)
    rw [hidle hcount, List.foldl_nil] at hbehind
    have hlistens : me.fd ∈
        (r.behind fl me input l' ⟨some (code, ok), frames⟩).listening := by
      apply (h.mem_behind hread hwritten).mpr
      constructor
      · simp [nowAsked, hstart, hok]
      · exact List.mem_map_of_mem (find_client h.client).1
    rw [hidle hcount]
    constructor
    · intro hheard
      refine ⟨nofun, fun _ => ?_⟩
      rw [← hbehind]
      exact hheard (List.ne_nil_of_mem hlistens)
    · rintro ⟨-, hon⟩ -
      rw [hbehind]
      exact hon hcount
  · -- the device turns the receiver on
    obtain ⟨okc, hone, -⟩ := hasked hcount
    have hokc : okc = true := by
      rw [hone] at hanswered
      exact hanswered _ (List.mem_singleton_self _)
    rw [hone, hokc] at hbehind ⊢
    apply iff_of_true
    · exact fun _ => hbehind
    · constructor
      · intro c hc hturn
        rw [List.mem_singleton.mp hc] at hturn
        exact absurd hturn (by decide)
      · exact fun hc => absurd hc hcount

/-- A request that is refused. -/
theorem refused (h : Alone fl r me input l' ⟨(translateProtocol request.code me.version false).map
      (·, false), frames⟩)
    (hread : readDataPacket input.arrival = some request) (hwritten : input.written = true)
    (hcommands : clientCommands fl r.listener me input =
      requestCommands fl (r.listener.session me request))
    (hcode : acceptedCode (r.listener.session me request) = none) :
    (r.behind fl me input l' ⟨(translateProtocol request.code me.version false).map
      (·, false), frames⟩).Heard ↔ SparesListeners fl r me input := by
  have hnil : clientCommands fl r.listener me input = [] := by
    rw [hcommands, requestCommands, hcode]
  apply iff_of_true
  · apply h.heard_of_subset hread hwritten (nowAsked_refused _ _ _)
    intro hon
    simp only [Receiver.behind, hnil, List.foldl_nil, hon]
  · rw [SparesListeners, hnil, hread]
    simp [hcode]

/-- Any other request: none of its transactions is needed unless it resets the device. -/
theorem other (h : Alone fl r me input l' ⟨some (code, ok), frames⟩)
    (hread : readDataPacket input.arrival = some request) (hwritten : input.written = true)
    (hcommands : clientCommands fl r.listener me input =
      requestCommands fl (r.listener.session me request))
    (hcode : acceptedCode (r.listener.session me request) = some code)
    (hstart : ¬startsReceiving code) :
    (r.behind fl me input l' ⟨some (code, ok), frames⟩).Heard ↔
      SparesListeners fl r me input := by
  have hswitched : switchedCode code = code := if_neg (fun hraw => hstart (.inr hraw))
  have hkeeps : SparesListeners fl r me input ↔
      ∀ c ∈ clientCommands fl r.listener me input, turnsOff c.1 →
        ∀ fd ∈ r.listening, c.1 ≠ IG_DEV_RESET := by
    rw [SparesListeners, hread]
    simp only [Option.mem_some_iff, forall_eq', hcode, hstart, hwritten, Option.isSome_some,
      and_true, false_implies, implies_true]
    constructor
    · intro hoff c hc hturn fd hfd
      exact (hoff c hc hturn fd hfd).2
    · intro hoff c hc hturn fd hfd
      exact ⟨h.alone fd hfd, hoff c hc hturn fd hfd⟩
  rw [hkeeps]
  have hcodes : ∀ c ∈ clientCommands fl r.listener me input, c = (code, true) := by
    intro c hc
    have hok := h.answered c hc
    rw [hcommands] at hc
    obtain hnil | ⟨code', okc, hcode', hone⟩ := requestCommands_code fl
      (r.listener.session me request)
    · rw [hnil] at hc
      cases hc
    · obtain rfl := Option.some.inj (hcode.symm.trans hcode')
      rw [hone, hswitched] at hc
      obtain rfl := List.mem_singleton.mp hc
      rw [← hok]
  by_cases hoff : code = IG_DEV_RECVOFF
  · -- the client stops, and nobody else listens
    apply iff_of_true
    · intro hne
      obtain ⟨fd, hfd⟩ := List.exists_mem_of_ne_nil _ hne
      obtain ⟨hasked, hclient⟩ := (h.mem_behind hread hwritten).mp hfd
      rw [nowAsked, if_neg (fun hc => hstart hc.1), if_pos (.inr hoff)] at hasked
      obtain ⟨hasked, hne⟩ := mem_stopAsking.mp hasked
      exact absurd (h.alone fd (mem_listening.mpr ⟨hasked, hclient⟩)) hne
    · intro c hc _ _ _
      rw [hcodes c hc, hoff]
      decide
  · have hsame : nowAsked me.fd (some (code, ok)) r.asked = r.asked := by
      rw [nowAsked, if_neg (fun hc => hstart hc.1), if_neg (not_or_intro hstart hoff)]
    by_cases hreset : (IG_DEV_RESET, true) ∈ clientCommands fl r.listener me input
    · -- the receiver is off, so nobody may be listening
      have hcode' : code = IG_DEV_RESET := (Prod.mk.inj (hcodes _ hreset)).1.symm
      have hbehind : (r.behind fl me input l' ⟨some (code, ok), frames⟩).on = false := by
        have hoffs := switchReceiver_offs (fun c hc => .inr (by rw [hcodes c hc, hcode'])) h.answered
          r.on
        rw [Receiver.behind, hoffs, List.isEmpty_eq_false_iff.mpr (List.ne_nil_of_mem hreset),
          Bool.and_false]
      constructor
      · intro hheard c _ _ fd hfd
        obtain ⟨hasked, hclient⟩ := mem_listening.mp hfd
        rw [← hsame] at hasked
        have hlistens := (h.mem_behind hread hwritten).mpr ⟨hasked, hclient⟩
        have hon := hheard (List.ne_nil_of_mem hlistens)
        rw [hbehind] at hon
        cases hon
      · intro hnone hne
        obtain ⟨fd, hfd⟩ := List.exists_mem_of_ne_nil _ hne
        obtain ⟨hasked, hclient⟩ := (h.mem_behind hread hwritten).mp hfd
        rw [hsame] at hasked
        exact absurd rfl (hnone _ hreset (.inr rfl) fd (mem_listening.mpr ⟨hasked, hclient⟩))
    · have hnot : ∀ c ∈ clientCommands fl r.listener me input, c.1 ≠ IG_DEV_RESET := by
        intro c hc heq
        have hpair := hcodes c hc
        rw [hpair] at hc heq
        exact hreset (heq ▸ hc)
      apply iff_of_true
      · apply h.heard_of_subset hread hwritten
        · rw [hsame]
          exact List.Subset.refl _
        · intro hon
          simp only [Receiver.behind, hon]
          apply switchReceiver_stays
          intro c hc hturn
          obtain heq | heq := hturn
          · rw [hcodes c hc] at heq
            exact hoff heq
          · exact hnot c hc heq
      · exact fun c hc _ _ _ => hnot c hc

/-- The client's own request decides whether it is heard. -/
theorem keeps (h : Alone fl r me input l' o) :
    (r.behind fl me input l' o).Heard ↔ SparesListeners fl r me input := by
  by_cases hstays : (readDataPacket input.arrival).isSome = true ∧ input.written = true
  · obtain ⟨request, hread⟩ := Option.isSome_iff_exists.mp hstays.1
    have hcommands : clientCommands fl r.listener me input =
        requestCommands fl (r.listener.session me request) := by
      simp only [clientCommands, hread, if_pos hstays.2, List.append_nil]
    obtain ⟨hnone, -⟩ | ⟨request', s, ok, frame, hread', hreq, -, -, rfl⟩ := handleClient_spec h.step
    · rw [hread] at hnone
      cases hnone
    obtain rfl := Option.some.inj (hread.symm.trans hread')
    obtain ⟨hcode, rfl, -⟩ | ⟨code, done, hcode, -⟩ := handleClientRequest_spec hreq
    · exact h.refused hread hstays.2 hcommands hcode
    · have htranslate : translateProtocol request.code me.version false = some code :=
        (acceptedCode_some hcode).1
      simp only [htranslate, Option.map_some] at h ⊢
      by_cases hstart : startsReceiving code
      · exact h.starting hread hstays.2 hcommands hreq hcode hstart
      · exact h.other hread hstays.2 hcommands hcode hstart
  · exact h.gone hstays

end Alone

/-! ### The condition -/

/-- No transaction of a client disturbs the listeners when its request and the count say so. -/
theorem sparesListeners_iff {r : Receiver} {me : Client} {input : ClientInput} {l' : Listener}
    {o : Output} {d : Device} (hd : r.listener.device = some d)
    (hans : ∀ c ∈ clientCommands fl r.listener me input, c.2 = true)
    (h : handleClient fl r.listener me input = some (l', o)) :
    SparesListeners fl r me input ↔ KeepsReceiver r me input d := by
  have hmem {code : Byte} (hoff : turnsOff code) := mem_clientCommands hd hans h hoff
  unfold SparesListeners KeepsReceiver
  rw [← and_assoc]
  apply and_congr
  · constructor
    · intro hspares
      constructor
      · intro code hcode hstop fd hfd
        have hoff := hstop.turnsOff
        obtain ⟨ok, hc⟩ := (hmem hoff).mpr (.inl ⟨hcode, hstop⟩)
        obtain ⟨heq, hnot⟩ := hspares _ hc hoff fd hfd
        refine ⟨heq, fun hreset => ?_⟩
        obtain ⟨request, hread, -⟩ := Option.bind_eq_some_iff.mp hcode
        apply Bool.eq_false_iff.mpr
        intro hwritten
        exact hnot ⟨hreset, by rw [hread]; rfl, hwritten⟩
      · intro hgone hstops fd hfd
        obtain ⟨ok, hc⟩ := (hmem (.inl rfl)).mpr (.inr ⟨hgone, rfl, hstops⟩)
        exact (hspares _ hc (.inl rfl) fd hfd).1
    · rintro ⟨hstops, hleaves⟩ c hc hoff fd hfd
      obtain ⟨hcode, hstop⟩ | ⟨hgone, hrecv, hstop⟩ := (hmem hoff).mp ⟨c.2, hc⟩
      · obtain ⟨heq, hreset⟩ := hstops c.1 hcode hstop fd hfd
        refine ⟨heq, fun hall => ?_⟩
        rw [hreset hall.1] at hall
        exact Bool.false_ne_true hall.2.2
      · refine ⟨hleaves hgone hstop fd hfd, fun hall => ?_⟩
        rw [hrecv] at hall
        exact absurd hall.1 (by decide)
  · unfold FindsReceiver clientCode
    rw [hd]
    simp only [Option.mem_def, Option.bind_eq_some_iff]
    constructor
    · rintro hfinds code ⟨request, hread, hcode⟩ hwritten hstart
      exact hfinds request hread code hcode hwritten hstart d rfl
    · intro hfinds request hread code hcode hwritten hstart d' hd'
      obtain rfl := Option.some.inj hd'
      exact hfinds code ⟨request, hread, hcode⟩ hwritten hstart

/-- The condition of an event for a readable client. -/
theorem keepsListening_readable {r : Receiver} {me : Client} {input : ClientInput} {l' : Listener}
    {o : Output} (hme : r.listener.clients.find? (·.fd = me.fd) = some me)
    (hans : ∀ c ∈ clientCommands fl r.listener me input, c.2 = true)
    (h : handleClient fl r.listener me input = some (l', o)) :
    SparesListeners fl r me input ↔ KeepsListening r (.readable me.fd input) := by
  simp only [KeepsListening, hme, Option.mem_some_iff, forall_eq']
  cases hd : r.listener.device with
  | none =>
      apply iff_of_true
      · unfold SparesListeners
        rw [clientCommands_none hd me input, hd]
        exact ⟨nofun, fun _ _ _ _ _ _ _ => nofun⟩
      · exact nofun
  | some d =>
      rw [sparesListeners_iff hd hans h]
      simp only [Option.mem_some_iff, forall_eq']

/-! ### Whole runs -/

/-- While the receiver is on for everybody who listens, whether the next event keeps it so. -/
theorem receiverStep_heard (r : Receiver) (e : Event) (r' : Receiver) (o : Output)
    (hheard : r.Heard) (hans : Answered fl r e) (h : receiverStep fl r e = some (r', o)) :
    r'.Heard ↔ KeepsListening r e := by
  obtain ⟨⟨l', o'⟩, hstep, hr⟩ := Option.map_eq_some_iff.mp h
  obtain ⟨rfl, rfl⟩ := Prod.mk.inj hr
  cases e with
  | connected fd =>
      obtain ⟨l₁, hconn, hl⟩ := Option.map_eq_some_iff.mp hstep
      obtain ⟨rfl, rfl⟩ := Prod.mk.inj hl
      refine iff_of_true (hheard.subset ?_ id) trivial
      intro fd' hfd
      obtain ⟨hasked, hclient⟩ := mem_listening.mp hfd
      have hkept : fd' ∈ r.asked ∧ fd' ≠ fd := mem_stopAsking.mp hasked
      unfold clientConnected at hconn
      split_ifs at hconn
      obtain rfl := Option.some.inj hconn
      simp only [List.map_append, List.map_singleton, List.mem_append, List.mem_singleton] at hclient
      exact mem_listening.mpr ⟨hkept.1, hclient.resolve_right hkept.2⟩
  | readable fd input =>
      obtain ⟨me, hfind, hclient⟩ := Option.bind_eq_some_iff.mp hstep
      obtain ⟨-, rfl⟩ := find_client hfind
      unfold Answered at hans
      rw [eventCommands_readable input hfind] at hans ⊢
      rw [← keepsListening_readable hfind hans hclient]
      by_cases halone : ∀ fd ∈ r.listening, fd = me.fd
      · exact Alone.keeps ⟨hfind, hheard, halone, hans, hclient⟩
      · push Not at halone
        obtain ⟨fd, hfd, hne⟩ := halone
        exact keeps_others (hheard (List.ne_nil_of_mem hfd)) hfd hne hans hclient
  | queued packet =>
      obtain ⟨rfl, rfl⟩ := Prod.mk.inj (Option.some.inj hstep)
      exact iff_of_true (hheard.subset (List.Subset.refl _) id) trivial
  | fromReader written =>
      refine iff_of_true (hheard.subset ?_ id) trivial
      intro fd hfd
      obtain ⟨hasked, hclient⟩ := mem_listening.mp hfd
      have hsub := (handleReader_sublist hstep).map (·.fd)
      exact mem_listening.mpr ⟨hasked, hsub.subset hclient⟩
  | otherThreads server =>
      obtain ⟨rfl, rfl⟩ := Prod.mk.inj (Option.some.inj hstep)
      exact iff_of_true (hheard.subset (List.Subset.refl _) id) trivial

/-- **The receiver is on while somebody listens**, all along a run in which no transaction fails,
exactly when every event keeps the receiver for whoever goes on to listen. -/
theorem receiver_on_iff {l : Listener} {on : Bool} {es : List Event} {r' : Receiver}
    {os : List Output}
    (hans : Transition.Guarded (receiverStep fl) (Answered fl) (.start l on) es)
    (hrun : Transition.run (receiverStep fl) (.start l on) es = some (r', os)) :
    Transition.Always (receiverStep fl) Receiver.Heard (.start l on) es ↔
      Transition.Guarded (receiverStep fl) KeepsListening (.start l on) es := by
  have hstart : (Receiver.start l on).Heard := fun hne => absurd rfl hne
  exact Transition.always_iff_guarded receiverStep_heard es _ r' os hstart hans hrun

/-- A worker with two clients of the current protocol, whose device answers requests to receive
and to stop. -/
def twoClients : Listener where
  server := ⟨false, []⟩
  device := some (startWorker 8 eight_pos ⟨0, ascii "0", some (ascii "1-2"), none⟩ (1, 2) 0x0309
    ⟨[⟨true, none, .reply ⟨IG_DEV_RECVON, 0, some []⟩, []⟩,
      ⟨true, none, .reply ⟨IG_DEV_RECVOFF, 0, some []⟩, []⟩], []⟩)
  recvList := []
  clients := [⟨3, 0, IG_PROTOCOL_VERSION⟩, ⟨4, 0, IG_PROTOCOL_VERSION⟩]

/-- A request without data. -/
def asks (fd : Fd) (code : Byte) : Event := .readable fd ⟨.whole code 0 [], 0, true, true⟩

/-- One client asks to receive, then both, and the first one stops. -/
def relayedEvents : List Event :=
  [asks 3 IG_DEV_RECVON, asks 4 IG_DEV_RECVON, asks 3 IG_DEV_RECVOFF]

theorem receiver_on_relayed : ∃ r' os,
    Transition.run (receiverStep Binary64.nearest) (.start twoClients false) relayedEvents =
      some (r', os) ∧ r'.listening = [4] ∧
    (Transition.Always (receiverStep Binary64.nearest) Receiver.Heard (.start twoClients false)
        relayedEvents ↔
      Transition.Guarded (receiverStep Binary64.nearest) KeepsListening (.start twoClients false)
        relayedEvents) := by
  have hans : Transition.Guarded (receiverStep Binary64.nearest) (Answered Binary64.nearest)
      (.start twoClients false) relayedEvents := by decide +kernel
  exact ⟨_, _, rfl, rfl, receiver_on_iff hans rfl⟩

/-- A client listens, another one resets the device or stops without receiving, and the receiver is
off although no transaction failed. -/
theorem receiver_off_listening :
    (∃ r' os, Transition.Guarded (receiverStep Binary64.nearest) (Answered Binary64.nearest)
        (.start twoClients false) [asks 3 IG_DEV_RECVON, asks 4 IG_DEV_RESET] ∧
      Transition.run (receiverStep Binary64.nearest) (.start twoClients false)
        [asks 3 IG_DEV_RECVON, asks 4 IG_DEV_RESET] = some (r', os) ∧ ¬r'.Heard) ∧
    ∃ r' os, Transition.Guarded (receiverStep Binary64.nearest) (Answered Binary64.nearest)
        (.start twoClients false) [asks 3 IG_DEV_RECVON, asks 4 IG_DEV_RECVOFF] ∧
      Transition.run (receiverStep Binary64.nearest) (.start twoClients false)
        [asks 3 IG_DEV_RECVON, asks 4 IG_DEV_RECVOFF] = some (r', os) ∧ ¬r'.Heard := by
  have hreset : Transition.Guarded (receiverStep Binary64.nearest) (Answered Binary64.nearest)
      (.start twoClients false) [asks 3 IG_DEV_RECVON, asks 4 IG_DEV_RESET] := by decide +kernel
  have hstop : Transition.Guarded (receiverStep Binary64.nearest) (Answered Binary64.nearest)
      (.start twoClients false) [asks 3 IG_DEV_RECVON, asks 4 IG_DEV_RECVOFF] := by decide +kernel
  have hoff {r : Receiver} (hon : r.on = false) (hlistens : r.listening = [3]) : ¬r.Heard := by
    intro hheard
    rw [hheard (hlistens ▸ List.cons_ne_nil _ _)] at hon
    cases hon
  constructor
  · exact ⟨_, _, hreset, rfl, hoff rfl rfl⟩
  · exact ⟨_, _, hstop, rfl, hoff rfl rfl⟩

end IguanaIR
