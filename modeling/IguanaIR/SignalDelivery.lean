import IguanaIR.ReceiverCount
import IguanaIR.Success

/-! # The delivery of received signals

Who is to get a received signal is kept in a `Ledger`, which reads the events of a run and what
shows of them on the outside: it knows the last request to receive or to stop that each connected
client was told succeeded, and the packets that are queued, first in, first out.  `Allows` is what
the ledger asks of the frames written in a step.

The daemon's own record of the request is the client's `receiving` field.  The two agree as long
as no request for raw signals succeeds (the daemon takes it for one for pulses), no receiver is
told that stopping failed (the daemon stops it all the same), and every receiver has a protocol
that the daemon knows. -/

namespace IguanaIR

variable {fl : ℚ → ℚ}

/-! ### The ledger -/

/-- What a client last asked for with success. -/
inductive Subscription where
  | silent
  | pulses
  | raw
deriving DecidableEq, Repr

/-- The subscriptions of the connected clients, and the packets that are not taken yet. -/
structure Ledger where
  subscription : Fd → Option Subscription
  queue : List DataPacket

namespace Ledger

def set (t : Ledger) (fd : Fd) (s : Option Subscription) : Ledger :=
  { t with subscription := Function.update t.subscription fd s }

/-- A new worker, without clients. -/
def start (queue : List DataPacket) : Ledger := ⟨fun _ => none, queue⟩

/-- The subscription behind a request with this code and this success. -/
def requested (request : Option (Byte × Bool)) (old : Subscription) : Subscription :=
  match request with
  | some (code, true) =>
      if code = IG_DEV_RECVON then .pulses
      else if code = IG_DEV_RAWRECVON then .raw
      else if code = IG_DEV_RECVOFF then .silent
      else old
  | _ => old

/-- Clients come and go, and go when they cannot be read from or written to. -/
def next (t : Ledger) : Event → Output → Ledger
  | .connected fd, _ => t.set fd (some .silent)
  | .readable fd input, o =>
      if (readDataPacket input.arrival).isSome ∧ input.written then
        t.set fd ((t.subscription fd).map (requested o.request))
      else t.set fd none
  | .queued packet, _ => { t with queue := t.queue ++ [packet] }
  | .fromReader _, _ => { t with queue := t.queue.tail }
  | .otherThreads _, _ => t

/-- The client gets one frame, a received signal in some version of the protocol. -/
def GetsOne (frames : List (Fd × Frame)) (fd : Fd) (payload : List Byte) : Prop :=
  ∃ version code, translateProtocol IG_DEV_RECV version true = some code ∧
    frames.filter (·.1 = fd) = [(fd, ⟨code, payload.length, payload⟩)]

/-- What a client with this subscription is to get. -/
def Gets (frames : List (Fd × Frame)) (fd : Fd) (bytes pulses : List Byte) :
    Option Subscription → Prop
  | some .pulses => GetsOne frames fd pulses
  | some .raw => GetsOne frames fd bytes
  | _ => frames.filter (·.1 = fd) = []

/-- Every client gets what it asked for of the bytes of a packet. -/
def Delivered (t : Ledger) (packet : DataPacket) (frames : List (Fd × Frame)) : Prop :=
  ∃ bytes words, readBytes packet.data packet.dataLen = some bytes ∧
    iguanaDevToPulses bytes = some words ∧
    ∀ fd, Gets frames fd bytes (words.flatMap wordBytes) (t.subscription fd)

/-- A signal is delivered when its packet is taken, which is the first of the queue; besides,
only the reply to a request is written. -/
def Allows (t : Ledger) : Event → Output → Prop
  | .fromReader _, o => ∃ packet ∈ t.queue.head?, packet.code = IG_DEV_RECV →
      t.Delivered packet o.frames
  | .readable fd _, o => ∀ x ∈ o.frames, x.1 = fd
  | _, o => o.frames = []

end Ledger

/-! ### The condition -/

/-- The events that the ledger and the daemon agree on, in a run where signals can be written. -/
def KeepsSignals (fl : ℚ → ℚ) (l : Listener) : Event → Prop
  | .readable fd input =>
      ∀ me ∈ l.clients.find? (·.fd = fd), ∀ request ∈ readDataPacket input.arrival,
        ∀ code ∈ acceptedCode (l.session me request), ∀ d ∈ l.device,
          (code = IG_DEV_RAWRECVON → ¬recvOnSucceeds fl (l.session me request) d) ∧
          (code = IG_DEV_RECVOFF → me.receiving ≠ 0 → recvOffSucceeds fl (l.session me request) d)
  | .fromReader written =>
      (∀ c ∈ l.clients, written c.fd = true) ∧ ∀ packet ∈ l.recvList.head?,
        packet.code = IG_DEV_RECV →
          ∀ c ∈ l.clients, c.receiving ≠ 0 → c.version ≤ IG_PROTOCOL_VERSION
  | _ => True

instance : DecidableRel (KeepsSignals fl)
  | l, .readable fd input => inferInstanceAs (Decidable (∀ me ∈ l.clients.find? (·.fd = fd),
      ∀ request ∈ readDataPacket input.arrival, ∀ code ∈ acceptedCode (l.session me request),
        ∀ d ∈ l.device,
          (code = IG_DEV_RAWRECVON → ¬recvOnSucceeds fl (l.session me request) d) ∧
          (code = IG_DEV_RECVOFF → me.receiving ≠ 0 →
            recvOffSucceeds fl (l.session me request) d)))
  | l, .fromReader written => inferInstanceAs (Decidable ((∀ c ∈ l.clients, written c.fd = true) ∧
      ∀ packet ∈ l.recvList.head?, packet.code = IG_DEV_RECV →
        ∀ c ∈ l.clients, c.receiving ≠ 0 → c.version ≤ IG_PROTOCOL_VERSION))
  | _, .connected _ | _, .queued _ | _, .otherThreads _ => isTrue trivial

/-! ### Finding a client -/

theorem find_remove (clients : List Client) (fd fd' : Fd) :
    (removeClient clients fd').find? (·.fd = fd) =
      if fd = fd' then none else clients.find? (·.fd = fd) := by
  unfold removeClient
  rw [List.find?_filter]
  split_ifs with h
  · rw [List.find?_eq_none]
    intro c _ hc
    simp only [ne_eq, decide_not, Bool.not_eq_true', decide_eq_true_eq, decide_eq_false_iff_not,
      Bool.decide_and, Bool.and_eq_true] at hc
    exact hc.1 (hc.2.trans h)
  · congr 1
    funext c
    by_cases hc : c.fd = fd
    · simp [hc, h]
    · simp [hc]

theorem find_update (clients : List Client) (me : Client) (fd : Fd) :
    (updateClient clients me).find? (·.fd = fd) =
      (clients.find? (·.fd = fd)).map (fun c => if fd = me.fd then me else c) := by
  unfold updateClient
  rw [List.find?_map]
  have hsame : ((fun c : Client => decide (c.fd = fd)) ∘ fun c => if c.fd = me.fd then me else c) =
      fun c => decide (c.fd = fd) := by
    funext c
    by_cases hc : c.fd = me.fd
    · simp [hc]
    · simp [hc]
  rw [hsame]
  cases h : clients.find? (·.fd = fd) with
  | none => rfl
  | some c =>
      obtain ⟨-, hfd⟩ := find_client h
      simp [hfd]

theorem find_connect {clients : List Client} {fd : Fd} (hfd : fd ∉ clients.map (·.fd)) (fd' : Fd) :
    (clients ++ [(⟨fd, 0, 0⟩ : Client)]).find? (·.fd = fd') =
      if fd' = fd then some ⟨fd, 0, 0⟩ else clients.find? (·.fd = fd') := by
  rw [List.find?_append]
  split_ifs with h
  · have hnone : clients.find? (·.fd = fd') = none := by
      rw [List.find?_eq_none]
      intro c hc heq
      exact hfd (List.mem_map.mpr ⟨c, hc, (of_decide_eq_true heq).trans h⟩)
    rw [hnone, h]
    simp
  · have hne : ¬fd = fd' := fun heq => h heq.symm
    simp [hne]

/-- The frames for one client, among those for all of them. -/
theorem filter_told {f : Client → List (Fd × Frame)} (hf : ∀ c, ∀ x ∈ f c, x.1 = c.fd) (fd : Fd) :
    ∀ {clients : List Client}, Distinct clients →
      (clients.flatMap f).filter (·.1 = fd) = (clients.find? (·.fd = fd)).elim [] f
  | [], _ => rfl
  | c :: clients, hd => by
      obtain ⟨hnot, hd'⟩ := List.nodup_cons.mp hd
      rw [List.flatMap_cons, List.filter_append, filter_told hf fd hd']
      by_cases hc : c.fd = fd
      · have hrest : clients.find? (·.fd = fd) = none := by
          rw [List.find?_eq_none]
          intro c' hc' heq
          exact hnot (List.mem_map.mpr ⟨c', hc', (of_decide_eq_true heq).trans hc.symm⟩)
        have hall : (f c).filter (·.1 = fd) = f c :=
          List.filter_eq_self.mpr (fun x hx => by simpa using (hf c x hx).trans hc)
        rw [hall, hrest, List.find?_cons_of_pos (by simpa using hc)]
        simp
      · have hnone : (f c).filter (·.1 = fd) = [] :=
          List.filter_eq_nil_iff.mpr (fun x hx => by simpa [hf c x hx] using hc)
        rw [hnone, List.find?_cons_of_neg (by simpa using hc), List.nil_append]

/-! ### The record of the daemon -/

/-- The subscription that a client's `receiving` field stands for. -/
def Client.subscription (c : Client) : Subscription :=
  if c.receiving = 0 then .silent else .pulses

/-- The daemon's record is the ledger's. -/
structure Agrees (l : Listener) (t : Ledger) : Prop where
  distinct : Distinct l.clients
  modes : ∀ c ∈ l.clients, c.receiving = 0 ∨ c.receiving = IG_DEV_RECVON
  subscription : ∀ fd, t.subscription fd = (l.clients.find? (·.fd = fd)).map Client.subscription
  queue : t.queue = l.recvList

theorem finalCode_recvOff (version : Option Version) :
    finalCode version IG_DEV_RECVOFF = IG_DEV_RECVOFF :=
  forwardedCode_of_not_pinConfig (by decide) (by decide)

/-- A request changes the record as it changes the ledger. -/
theorem request_subscription {resetOk ok : Bool} {s s' : Session}
    (hmode : s.target.receiving = 0 ∨ s.target.receiving = IG_DEV_RECVON)
    (hguard : ∀ code, acceptedCode s = some code → ∀ d, s.device = some d →
      (code = IG_DEV_RAWRECVON → ¬recvOnSucceeds fl s d) ∧
      (code = IG_DEV_RECVOFF → s.target.receiving ≠ 0 → recvOffSucceeds fl s d))
    (h : handleClientRequest fl resetOk s = some (s', ok)) :
    (s'.target.receiving = 0 ∨ s'.target.receiving = IG_DEV_RECVON) ∧
      s'.target.subscription = Ledger.requested
        ((translateProtocol s.request.code s.target.version false).map (·, ok))
        s.target.subscription := by
  obtain ⟨-, rfl, htarget, -⟩ | ⟨code, done, hcode, hdone, hacc⟩ := handleClientRequest_spec h
  · rw [htarget]
    refine ⟨hmode, ?_⟩
    cases translateProtocol s.request.code s.target.version false <;> rfl
  rw [(acceptedCode_some hcode).1, Option.map_some]
  have hm : s'.target.receiving = if done = true ∧ startsReceiving code then IG_DEV_RECVON
      else switchedMode code s.target.receiving := hacc.mode
  have hdevice (hn : needsDevice code = true) : ∃ d, s.device = some d :=
    completes_device (s := s.setCode code) hn hdone
  -- where nothing starts, stops or succeeds, nothing changes
  have hkept (hmode' : s'.target.receiving = s.target.receiving)
      (hreq : Ledger.requested (some (code, ok)) s.target.subscription = s.target.subscription) :
      (s'.target.receiving = 0 ∨ s'.target.receiving = IG_DEV_RECVON) ∧
        s'.target.subscription = Ledger.requested (some (code, ok)) s.target.subscription := by
    refine ⟨hmode' ▸ hmode, ?_⟩
    rw [hreq, Client.subscription, hmode']
    rfl
  by_cases hraw : code = IG_DEV_RAWRECVON
  · obtain ⟨d, hd⟩ := hdevice (hraw ▸ rfl)
    have hfails : ¬done = true := by
      rw [completes_recvOn (.inr hraw) hd hdone]
      exact (hguard code hcode d hd).1 hraw
    have hnot : ok = false := Bool.eq_false_iff.mpr (fun hok => hfails (hacc.done_of_ok hok))
    refine hkept ?_ (by rw [hnot]; rfl)
    rw [hm, if_neg (fun hc => hfails hc.1), hraw]
    rfl
  by_cases hon : code = IG_DEV_RECVON
  · have hok := accepted_ok_iff hcode hacc (by rw [hon]; decide)
      (by rw [hon]; exact startsReceiving_iff.mpr (.inl rfl))
    cases ok with
    | false =>
        refine hkept ?_ rfl
        rw [hm, if_neg (fun hc => Bool.false_ne_true (hok.mpr hc.1)), hon]
        rfl
    | true =>
        rw [if_pos ⟨hok.mp rfl, .inl hon⟩] at hm
        refine ⟨.inr hm, ?_⟩
        rw [Client.subscription, hm, hon]
        rfl
  have hstart : ¬(done = true ∧ startsReceiving code) := fun hc => hc.2.elim hon hraw
  rw [if_neg hstart] at hm
  by_cases hoff : code = IG_DEV_RECVOFF
  · obtain ⟨d, hd⟩ := hdevice (hoff ▸ rfl)
    have hok := accepted_ok_iff hcode hacc (by rw [hoff]; decide)
      (by rw [hoff]; exact finalCode_recvOff _)
    have hzero : s'.target.receiving = 0 := hm.trans (if_pos hoff)
    refine ⟨.inl hzero, ?_⟩
    rw [Client.subscription, if_pos hzero, hoff]
    by_cases hsilent : s.target.receiving = 0
    · rw [Client.subscription, if_pos hsilent]
      cases ok <;> rfl
    · subst hoff
      rw [hok.mpr ((completes_recvOff hd hdone).mpr ((hguard _ hcode d hd).2 rfl hsilent))]
      rfl
  · refine hkept (hm.trans (if_neg hoff)) ?_
    cases ok with
    | false => rfl
    | true => simp only [Ledger.requested, if_neg hon, if_neg hraw, if_neg hoff]

/-! ### One step -/

namespace Agrees

variable {l l' : Listener} {t : Ledger}

theorem congr (h : Agrees l t) (hclients : l'.clients = l.clients)
    (hqueue : l'.recvList = l.recvList) : Agrees l' t where
  distinct := by rw [hclients]; exact h.distinct
  modes := by rw [hclients]; exact h.modes
  subscription := by rw [hclients]; exact h.subscription
  queue := by rw [hqueue]; exact h.queue

/-- A client that is released has no subscription any more. -/
theorem release {me : Client} (h : Agrees l t) (hrel : releaseClient fl l me = some l') :
    Agrees l' (t.set me.fd none) := by
  obtain ⟨hclients, hqueue, -⟩ := releaseClient_spec hrel
  refine ⟨hclients ▸ h.distinct.remove _, fun c hc => ?_, fun fd => ?_, h.queue.trans hqueue.symm⟩
  · rw [hclients] at hc
    exact h.modes c (List.mem_of_mem_filter hc)
  · rw [hclients, find_remove]
    by_cases hfd : fd = me.fd
    · simp [Ledger.set, hfd]
    · simp [Ledger.set, hfd, h.subscription fd]

/-- A client whose record changes as its subscription does. -/
theorem update {me : Client} {s : Session} {request : Option (Byte × Bool)} (h : Agrees l t)
    (hme : l.clients.find? (·.fd = me.fd) = some me) (hfd : s.target.fd = me.fd)
    (hmode : s.target.receiving = 0 ∨ s.target.receiving = IG_DEV_RECVON)
    (hsub : s.target.subscription = Ledger.requested request me.subscription) :
    Agrees (l.behind s) (t.set me.fd ((t.subscription me.fd).map (Ledger.requested request))) := by
  refine ⟨h.distinct.update _, fun c hc => ?_, fun fd => ?_, h.queue⟩
  · obtain ⟨c', hc', rfl⟩ := List.mem_map.mp hc
    split_ifs
    · exact hmode
    · exact h.modes c' hc'
  · change _ = ((updateClient l.clients s.target).find? (·.fd = fd)).map Client.subscription
    rw [find_update, hfd]
    by_cases heq : fd = me.fd
    · subst heq
      simp [Ledger.set, h.subscription, hme, hsub]
    · simp [Ledger.set, heq, h.subscription fd]

theorem connect {fd : Fd} (h : Agrees l t) (hconn : clientConnected l fd = some l') :
    Agrees l' (t.set fd (some .silent)) := by
  unfold clientConnected at hconn
  split_ifs at hconn with hfd
  obtain rfl := Option.some.inj hconn
  refine ⟨h.distinct.connect hfd, fun c hc => ?_, fun fd' => ?_, h.queue⟩
  · obtain hc | hc := List.mem_append.mp hc
    · exact h.modes c hc
    · exact .inl (by rw [List.mem_singleton.mp hc])
  · rw [find_connect hfd]
    by_cases heq : fd' = fd
    · simp [Ledger.set, heq, Client.subscription]
    · simp [Ledger.set, heq, h.subscription fd']

/-- A client that can be read from: its request changes the record and the ledger alike. -/
theorem readable {me : Client} {input : ClientInput} {o : Output} (h : Agrees l t)
    (hme : l.clients.find? (·.fd = me.fd) = some me)
    (hguard : KeepsSignals fl l (.readable me.fd input))
    (hclient : handleClient fl l me input = some (l', o)) :
    Agrees l' (t.next (.readable me.fd input) o) ∧ ∀ x ∈ o.frames, x.1 = me.fd := by
  obtain ⟨hread, hrel, rfl⟩ | ⟨request, s, ok, frame, hread, hreq, -, hafter, rfl⟩ :=
    handleClient_spec hclient
  · refine ⟨?_, List.forall_mem_nil _⟩
    rw [Ledger.next, hread, if_neg (by simp)]
    exact h.release hrel
  · obtain ⟨hmode, hsub⟩ := request_subscription (s := l.session me request)
      (h.modes me (find_client hme).1) (hguard me hme request hread) hreq
    have hfd : s.target.fd = me.fd := handleClientRequest_fd hreq
    have hbehind := h.update hme hfd hmode hsub
    rw [Ledger.next, hread]
    obtain ⟨hwritten, hclients, hqueue, -⟩ | ⟨hwritten, hrel⟩ := afterReply_spec hafter
    · rw [if_pos ⟨rfl, hwritten⟩, hwritten]
      exact ⟨hbehind.congr hclients hqueue, by simp⟩
    · have hgone := hbehind.release hrel
      rw [hfd, Ledger.set, Ledger.set, Function.update_idem] at hgone
      rw [if_neg (by simp [hwritten]), hwritten]
      exact ⟨hgone, by simp⟩

end Agrees

theorem pulsePacket_frame (packet : DataPacket) (words : List (BitVec 32)) (code : Byte) :
    ({ pulsePacket packet words with code := code } : DataPacket).frame =
      some ⟨code, (words.flatMap wordBytes).length, words.flatMap wordBytes⟩ := by
  by_cases h : words.flatMap wordBytes = []
  · simp [pulsePacket, DataPacket.frame, h]
  · exact DataPacket.frame_of_filled h

theorem toldFrames_fst (packet : DataPacket) (translated : Bool) (written : Fd → Bool) (c : Client) :
    ∀ x ∈ toldFrames packet translated written c, x.1 = c.fd := by
  intro x hx
  unfold toldFrames at hx
  split_ifs at hx
  · obtain ⟨frame, -, rfl⟩ := List.mem_map.mp hx
    rfl
  · cases hx

/-- What one client of the list gets of a signal that goes out as pulses. -/
theorem toldFrames_gets {packet : DataPacket} (words : List (BitVec 32)) {written : Fd → Bool}
    {c : Client} (hcode : packet.code = IG_DEV_RECV) (hwritten : written c.fd = true)
    (hknown : c.receiving ≠ 0 → c.version ≤ IG_PROTOCOL_VERSION)
    (hmode : c.receiving = 0 ∨ c.receiving = IG_DEV_RECVON) :
    (c.subscription = .silent ∧ toldFrames (pulsePacket packet words) true written c = []) ∨
      (c.subscription = .pulses ∧ ∃ version code,
        translateProtocol IG_DEV_RECV version true = some code ∧
        toldFrames (pulsePacket packet words) true written c =
          [(c.fd, ⟨code, (words.flatMap wordBytes).length, words.flatMap wordBytes⟩)]) := by
  rcases hmode with hzero | hon
  · refine .inl ⟨if_pos hzero, if_neg (fun hh => ?_)⟩
    have : c.receiving = IG_DEV_RECVON := hh.1
    rw [hzero] at this
    exact absurd this (by decide)
  · have hne : c.receiving ≠ 0 := by rw [hon]; decide
    obtain ⟨code, htranslate⟩ := Option.isSome_iff_exists.mp (translateProtocol_recv (hknown hne))
    refine .inr ⟨if_neg hne, c.version, code, htranslate, ?_⟩
    have hpulse : translateProtocol (pulsePacket packet words).code c.version true = some code := by
      rw [← htranslate, ← hcode]
      rfl
    unfold toldFrames
    rw [if_pos ⟨hon, hwritten⟩, hpulse, Option.bind_some, pulsePacket_frame]
    rfl

/-- A broadcast leaves the clients alone and gives each what the ledger says. -/
theorem Agrees.broadcast {l : Listener} {t : Ledger} {packet : DataPacket} {written : Fd → Bool}
    {clients : List Client} {frames : List (Fd × Frame)} (h : Agrees l t)
    (hwritten : ∀ c ∈ l.clients, written c.fd = true)
    (hknown : packet.code = IG_DEV_RECV →
      ∀ c ∈ l.clients, c.receiving ≠ 0 → c.version ≤ IG_PROTOCOL_VERSION)
    (htell : tellPacket packet written l.clients = some (clients, frames)) :
    clients = l.clients ∧ (packet.code = IG_DEV_RECV → t.Delivered packet frames) := by
  have hraw : ∀ c ∈ l.clients, c.receiving ≠ IG_DEV_RAWRECVON := fun c hc => by
    rcases h.modes c hc with hm | hm <;> rw [hm] <;> decide
  obtain ⟨hclients, hframes⟩ := tellPacket_spec hraw hknown htell
  refine ⟨hclients, fun hcode => ?_⟩
  obtain ⟨hne, -⟩ | ⟨-, bytes, words, hbytes, hwords, rfl⟩ := hframes
  · exact absurd hcode hne
  refine ⟨bytes, words, hbytes, hwords, fun fd => ?_⟩
  have hfilter := filter_told (toldFrames_fst (pulsePacket packet words) true written) fd h.distinct
  rw [h.subscription fd]
  cases hfind : l.clients.find? (·.fd = fd) with
  | none =>
      rw [hfind] at hfilter
      exact hfilter
  | some c =>
      rw [hfind, Option.elim_some] at hfilter
      obtain ⟨hc, rfl⟩ := find_client hfind
      obtain ⟨hsub, htold⟩ | ⟨hsub, version, code, htranslate, htold⟩ := toldFrames_gets
        words hcode (hwritten c hc) (hknown hcode c hc) (h.modes c hc)
      · rw [Option.map_some, hsub]
        exact hfilter.trans htold
      · rw [Option.map_some, hsub]
        exact ⟨version, code, htranslate, hfilter.trans htold⟩

/-- Every event under the condition does what the ledger allows, and keeps the record right. -/
theorem listenStep_agrees (l : Listener) (t : Ledger) (e : Event) (l' : Listener) (o : Output)
    (hl : Agrees l t) (hguard : KeepsSignals fl l e) (h : listenStep fl l e = some (l', o)) :
    t.Allows e o ∧ Agrees l' (t.next e o) := by
  cases e with
  | connected fd =>
      obtain ⟨l₁, hconn, h⟩ := Option.map_eq_some_iff.mp h
      obtain ⟨rfl, rfl⟩ := Prod.mk.inj h
      exact ⟨rfl, hl.connect hconn⟩
  | readable fd input =>
      obtain ⟨me, hfind, hclient⟩ := Option.bind_eq_some_iff.mp h
      obtain ⟨-, rfl⟩ := find_client hfind
      exact (hl.readable hfind hguard hclient).symm
  | queued packet =>
      obtain ⟨rfl, rfl⟩ := Prod.mk.inj (Option.some.inj h)
      exact ⟨rfl, hl.distinct, hl.modes, hl.subscription, congrArg (· ++ [packet]) hl.queue⟩
  | fromReader written =>
      change handleReader l written = some (l', o) at h
      unfold handleReader at h
      split at h
      · cases h
      · next packet rest hqueue =>
          obtain ⟨⟨clients, frames⟩, htell, h⟩ := Option.map_eq_some_iff.mp h
          obtain ⟨rfl, rfl⟩ := Prod.mk.inj h
          have hhead : l.recvList.head? = some packet := by rw [hqueue]; rfl
          obtain ⟨rfl, hdelivered⟩ := hl.broadcast hguard.1 (hguard.2 packet hhead) htell
          refine ⟨⟨packet, by rw [hl.queue]; exact hhead, hdelivered⟩, hl.distinct, hl.modes,
            hl.subscription, ?_⟩
          change t.queue.tail = rest
          rw [hl.queue, hqueue]
          rfl
  | otherThreads server =>
      obtain ⟨rfl, rfl⟩ := Prod.mk.inj (Option.some.inj h)
      exact ⟨rfl, hl.congr rfl rfl⟩

/-! ### Whole runs -/

/-- **Signals are delivered** as the ledger says in every run of a worker, from its start, whose
events meet the condition. -/
theorem signals_delivered {l l' : Listener} {es : List Event} {os : List Output}
    (hstart : l.clients = []) (hguard : Transition.Guarded (listenStep fl) (KeepsSignals fl) l es)
    (hrun : Transition.run (listenStep fl) l es = some (l', os)) :
    Transition.Accepts Ledger.next Ledger.Allows (.start l.recvList) (Transition.trace es os) := by
  have hagrees : Agrees l (.start l.recvList) := by
    refine ⟨?_, ?_, fun fd => ?_, rfl⟩
    · rw [hstart]
      exact List.nodup_nil
    · rw [hstart]
      exact List.forall_mem_nil _
    · rw [hstart]
      rfl
  exact Transition.run_simulates listenStep_agrees es l l' _ os hagrees hguard hrun

/-- A client that asks to receive in this way, and a signal of two bytes. -/
def signalEvents (code : Byte) : List Event :=
  [.connected 3, .readable 3 ⟨.whole IG_EXCH_VERSIONS 2 [1, 0], 0, true, true⟩, bareEvent code,
    .queued ⟨IG_DEV_RECV, 2, some [0x05, 0x85]⟩, .fromReader (fun _ => true)]

theorem signals_delivered_pulses : ∃ l' os,
    Transition.run (listenStep Binary64.nearest) receivingWorker (signalEvents IG_DEV_RECVON) =
      some (l', os) ∧
    Transition.Accepts Ledger.next Ledger.Allows (.start receivingWorker.recvList)
      (Transition.trace (signalEvents IG_DEV_RECVON) os) :=
  have hguard : Transition.Guarded (listenStep Binary64.nearest) (KeepsSignals Binary64.nearest)
      receivingWorker (signalEvents IG_DEV_RECVON) := by decide
  ⟨_, _, rfl, signals_delivered rfl hguard rfl⟩

/-- A client that is told that its request for raw signals succeeded gets pulses. -/
theorem signals_not_delivered : ∃ l' os, receivingWorker.clients = [] ∧
    Transition.run (listenStep Binary64.nearest) receivingWorker
      (signalEvents IG_DEV_RAWRECVON) = some (l', os) ∧
    ¬Transition.Accepts Ledger.next Ledger.Allows (.start receivingWorker.recvList)
      (Transition.trace (signalEvents IG_DEV_RAWRECVON) os) := by
  refine ⟨_, _, rfl, rfl, ?_⟩
  rintro ⟨-, -, -, -, ⟨packet, hpacket, hdelivered⟩, -⟩
  obtain rfl := Option.some.inj hpacket
  obtain ⟨bytes, words, hbytes, -, hgets⟩ := hdelivered rfl
  obtain rfl := Option.some.inj hbytes
  obtain ⟨version, code, -, hframe⟩ := hgets 3
  have hlen : [8] = [2] := congrArg (fun frames => frames.map (·.2.payload.length)) hframe
  exact absurd hlen (by decide)

end IguanaIR
