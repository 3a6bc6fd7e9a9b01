import IguanaIR.StreamFraming

/-! # Transactions of the client library

`iguanaTransaction` of `iguanaIR.c` writes a request and takes the next frame of the connection
for its reply.  Received signals come on the same connection, and so do the replies to requests
that nobody waits for any more.

A `Connection` is the worker's listener with what is on the way to and from one program.  Requests
are numbered as they are written, and every frame remembers what the daemon wrote it for.  Frames
come whole. -/

namespace IguanaIR

variable {fl : ℚ → ℚ}

/-! ### The library -/

/-- The packet that `readDataPacket` makes of a frame. -/
def Frame.received (f : Frame) : DataPacket :=
  ⟨f.code, f.dataLen, if f.dataLen ≤ 0 then none else some f.payload⟩

def iguanaResponseIsError (response : Option DataPacket) : Bool := packetIsError response

/-- What is returned by `iguanaTransaction`, if it returns true, for a request that was written or
not and the response that was read. -/
def iguanaTransaction (written : Bool) (result : Option DataPacket) : Option DataPacket :=
  if written && !iguanaResponseIsError result then result else none

/-! ### One connection -/

/-- The reply to a request, or a received signal. -/
inductive Origin where
  | reply (n : ℕ)
  | signal
deriving DecidableEq, Repr

/-- A transaction that is over: its request, and the packet that it returned. -/
structure Exchange where
  request : ℕ
  returned : Option (Origin × DataPacket)
deriving DecidableEq, Repr

/-- The reply to that very request, or nothing. -/
def Exchange.Own (x : Exchange) : Prop := ∀ r ∈ x.returned, r.1 = .reply x.request

structure Connection where
  listener : Listener
  /-- Written by the program, not yet read by the daemon. -/
  requests : List (ℕ × DataPacket)
  /-- Written by the daemon, not yet read by the program. -/
  frames : List (Origin × Frame)
  issued : ℕ
  /-- The request that a transaction waits for. -/
  waiting : Option ℕ
  exchanges : List Exchange
deriving DecidableEq, Repr

namespace Connection

/-- Nothing was sent in either direction. -/
def start (l : Listener) : Connection := ⟨l, [], [], 0, none, []⟩

/-- The transaction for request `n` is over. -/
def finish (c : Connection) (n : ℕ) (written : Bool) (answer : Option (Origin × Frame)) :
    Connection :=
  { c with
    waiting := none
    exchanges := c.exchanges ++ [⟨n, (iguanaTransaction written (answer.map (·.2.received))).bind
      (fun packet => answer.map (·.1, packet))⟩] }

/-- A transaction starts.  One whose request cannot be written is over at once. -/
def request (c : Connection) (packet : DataPacket) (written : Bool) : Connection :=
  let c' := { c with issued := c.issued + 1 }
  if written then
    { c' with requests := c.requests ++ [(c.issued, packet)], waiting := some c.issued }
  else c'.finish c.issued false none

/-- What the event writes to the descriptor, and the requests that it leaves.  A new connection on
the descriptor is not this one. -/
def serve (fd : Fd) (c : Connection) : Event → Option (Origin × List (ℕ × DataPacket))
  | .connected fd' => if fd' = fd then none else some (.signal, c.requests)
  | .readable fd' input =>
      if fd' = fd then
        match readDataPacket input.arrival, c.requests with
        | none, requests => some (.signal, requests)
        | some packet, (n, request) :: rest => if packet = request then some (.reply n, rest) else none
        | some _, [] => none
      else some (.signal, c.requests)
  | .queued _ | .fromReader _ | .otherThreads _ => some (.signal, c.requests)

end Connection

/-- What the program and the daemon do. -/
inductive Move where
  /-- A transaction writes its request, or cannot. -/
  | request (packet : DataPacket) (written : Bool)
  /-- The transaction reads a frame. -/
  | response
  /-- No frame comes in time. -/
  | timeout
  /-- `iguanaReadResponse`, outside of a transaction. -/
  | read
  | daemon (e : Event)

def connectionStep (fl : ℚ → ℚ) (fd : Fd) (c : Connection) : Move → Option (Connection × Unit)
  | .request packet written =>
      if c.waiting.isSome then none else some (c.request packet written, ())
  | .response =>
      match c.waiting, c.frames with
      | some n, f :: rest => some ({ c with frames := rest }.finish n true (some f), ())
      | _, _ => none
  | .timeout =>
      match c.waiting, c.frames with
      | some n, [] => some (c.finish n true none, ())
      | _, _ => none
  | .read => if c.waiting.isSome then none else some ({ c with frames := c.frames.tail }, ())
  | .daemon e => do
      let (origin, requests) ← c.serve fd e
      let (l, o) ← listenStep fl c.listener e
      let frames := (o.frames.filter (·.1 = fd)).map (fun p => (origin, p.2))
      some ({ c with listener := l, requests := requests, frames := c.frames ++ frames }, ())

/-- Is the client told of the packet, in one form or the other? -/
def told (packet : DataPacket) (me : Client) : Prop :=
  (packet.code = IG_DEV_RECV ∧ (hears false me ∨ hears true me)) ∨
    (packet.code = IG_DEV_OVERRECV ∧ hears false me)

instance (packet : DataPacket) (me : Client) : Decidable (told packet me) :=
  inferInstanceAs (Decidable (_ ∨ _))

/-- A request is written when nothing is left on the way, and while it is, no signal is told to
the program. -/
def KeepsPairs (fd : Fd) (c : Connection) : Move → Prop
  | .request _ written => written = true → c.requests = [] ∧ c.frames = []
  | .daemon (.fromReader _) => c.waiting.isSome ∧ c.requests ≠ [] →
      ∀ packet ∈ c.listener.recvList.head?, ∀ me ∈ c.listener.clients, me.fd = fd →
        ¬told packet me
  | _ => True

instance (fd : Fd) : DecidableRel (KeepsPairs fd)
  | c, .request _ written =>
      inferInstanceAs (Decidable (written = true → c.requests = [] ∧ c.frames = []))
  | c, .daemon (.fromReader _) => inferInstanceAs (Decidable (c.waiting.isSome ∧ c.requests ≠ [] →
      ∀ packet ∈ c.listener.recvList.head?, ∀ me ∈ c.listener.clients, me.fd = fd →
        ¬told packet me))
  | _, .response | _, .timeout | _, .read | _, .daemon (.connected _) | _, .daemon (.readable _ _)
  | _, .daemon (.queued _) | _, .daemon (.otherThreads _) => isTrue trivial

/-! ### What a client is told -/

theorem forEach_fd {action : Client → Option (Bool × List (Fd × Frame))} {P : Client → Prop}
    (haction : ∀ me stays frames, action me = some (stays, frames) →
      ∀ p ∈ frames, p.1 = me.fd ∧ P me) :
    ∀ {clients clients' : List Client} {frames : List (Fd × Frame)},
      forEach action clients = some (clients', frames) →
        ∀ p ∈ frames, ∃ me ∈ clients, p.1 = me.fd ∧ P me
  | [], _, _, h, p, hp => by
      obtain ⟨-, rfl⟩ := Prod.mk.inj (Option.some.inj h)
      simp at hp
  | me :: rest, clients', frames, h, p, hp => by
      simp only [forEach, Option.bind_eq_bind, Option.bind_eq_some_iff, Prod.exists] at h
      obtain ⟨stays, more, hme, rest', frames', hrest, h⟩ := h
      obtain ⟨-, rfl⟩ := Prod.mk.inj (Option.some.inj h)
      cases List.mem_append.mp hp with
      | inl h => exact ⟨me, List.mem_cons_self .., haction me stays more hme p h⟩
      | inr h =>
          obtain ⟨c, hc, hfd⟩ := forEach_fd haction hrest p h
          exact ⟨c, List.mem_cons_of_mem _ hc, hfd⟩

theorem tellReceivers_fd {packet : DataPacket} {translated : Bool} {written : Fd → Bool}
    (me : Client) (stays : Bool) (frames : List (Fd × Frame))
    (h : tellReceivers packet translated written me = some (stays, frames)) :
    ∀ p ∈ frames, p.1 = me.fd ∧ hears translated me := by
  intro p hp
  by_cases hh : hears translated me
  · refine ⟨?_, hh⟩
    have hmode : (me.receiving = IG_DEV_RECVON ∧ translated = true) ∨
        (me.receiving = IG_DEV_RAWRECVON ∧ ¬translated = true) := by
      cases translated with
      | false => exact .inr ⟨hh, Bool.false_ne_true⟩
      | true => exact .inl ⟨hh, rfl⟩
    rw [tellReceivers, if_pos hmode] at h
    cases hcode : translateProtocol packet.code me.version true with
    | none =>
        simp only [hcode] at h
        obtain ⟨-, rfl⟩ := Prod.mk.inj (Option.some.inj h)
        simp at hp
    | some code =>
        simp only [hcode] at h
        obtain ⟨frame, -, h⟩ := Option.map_eq_some_iff.mp h
        obtain ⟨-, rfl⟩ := Prod.mk.inj h
        have hmem : p ∈ [(me.fd, frame)] := by
          split_ifs at hp
          · exact hp
          · simp at hp
        rw [List.mem_singleton.mp hmem]
  · obtain ⟨-, hframes⟩ := tellReceivers_spec (fun h => absurd h hh) h
    rw [hframes, toldFrames, if_neg (fun h => hh h.1)] at hp
    simp at hp

/-- A broadcast is only written to clients that are told. -/
theorem tellPacket_told {packet : DataPacket} {written : Fd → Bool} {clients clients' : List Client}
    {frames : List (Fd × Frame)} (h : tellPacket packet written clients = some (clients', frames)) :
    ∀ p ∈ frames, ∃ me ∈ clients, p.1 = me.fd ∧ told packet me := by
  intro p hp
  unfold tellPacket at h
  split_ifs at h with hrecv hover
  · simp only [tellSignal, Option.bind_eq_bind, Option.bind_eq_some_iff, Prod.exists] at h
    obtain ⟨clients₁, raw, h₁, bytes, -, words, -, clients₂, translated, h₂, h⟩ := h
    obtain ⟨-, rfl⟩ := Prod.mk.inj (Option.some.inj h)
    cases List.mem_append.mp hp with
    | inl h =>
        obtain ⟨me, hme, hfd, hh⟩ := forEach_fd tellReceivers_fd h₁ p h
        exact ⟨me, hme, hfd, .inl ⟨hrecv, .inl hh⟩⟩
    | inr h =>
        obtain ⟨me, hme, hfd, hh⟩ := forEach_fd tellReceivers_fd h₂ p h
        exact ⟨me, (forEach_sublist h₁).subset hme, hfd, .inl ⟨hrecv, .inr hh⟩⟩
  · obtain ⟨me, hme, hfd, hh⟩ := forEach_fd tellReceivers_fd h p hp
    exact ⟨me, hme, hfd, .inr ⟨hover, hh⟩⟩
  · obtain ⟨-, rfl⟩ := Prod.mk.inj (Option.some.inj h)
    simp at hp

/-- What is taken from the queue is written to clients of the list, who are told. -/
theorem fromReader_told {l l' : Listener} {written : Fd → Bool} {o : Output}
    (h : listenStep fl l (.fromReader written) = some (l', o)) :
    l'.clients.Sublist l.clients ∧ ∀ p ∈ o.frames, ∃ packet ∈ l.recvList.head?,
      ∃ me ∈ l.clients, p.1 = me.fd ∧ told packet me := by
  simp only [listenStep, handleReader] at h
  cases hrecv : l.recvList with
  | nil =>
      rw [hrecv] at h
      cases h
  | cons packet rest =>
      rw [hrecv] at h
      obtain ⟨⟨clients, frames⟩, htell, h⟩ := Option.map_eq_some_iff.mp h
      obtain ⟨rfl, rfl⟩ := Prod.mk.inj h
      refine ⟨tellPacket_sublist htell, ?_⟩
      intro p hp
      exact ⟨packet, rfl, tellPacket_told htell p hp⟩

/-- Events other than the client's own requests leave them alone, and only a signal that it is told
is written to it. -/
theorem elsewhere {fd : Fd} {c : Connection} {e : Event} {origin : Origin}
    {requests : List (ℕ × DataPacket)} {l' : Listener} {o : Output}
    (hother : ∀ input, e ≠ .readable fd input) (hserve : c.serve fd e = some (origin, requests))
    (h : listenStep fl c.listener e = some (l', o)) :
    requests = c.requests ∧
      (fd ∈ l'.clients.map (·.fd) → fd ∈ c.listener.clients.map (·.fd)) ∧
      ∀ p ∈ o.frames, p.1 = fd → ∃ written, e = .fromReader written ∧
        ∃ packet ∈ c.listener.recvList.head?, ∃ me ∈ c.listener.clients, me.fd = fd ∧
          told packet me := by
  have hframes := (listenStep_frames h).2
  cases e with
  | connected fd' =>
      simp only [Connection.serve] at hserve
      split_ifs at hserve with hfd
      obtain ⟨-, rfl⟩ := Prod.mk.inj (Option.some.inj hserve)
      obtain ⟨l₁, hconnect, h⟩ := Option.map_eq_some_iff.mp h
      obtain ⟨rfl, rfl⟩ := Prod.mk.inj h
      unfold clientConnected at hconnect
      split_ifs at hconnect
      obtain rfl := Option.some.inj hconnect
      refine ⟨rfl, ?_, by simp⟩
      intro hmem
      rw [List.map_append, List.mem_append] at hmem
      cases hmem with
      | inl hold => exact hold
      | inr hnew => exact absurd (List.mem_singleton.mp hnew).symm hfd
  | readable fd' input =>
      have hfd : fd' ≠ fd := by
        intro heq
        exact hother input (by rw [heq])
      simp only [Connection.serve, if_neg hfd] at hserve
      obtain ⟨-, rfl⟩ := Prod.mk.inj (Option.some.inj hserve)
      refine ⟨rfl, ?_, ?_⟩
      · intro hmem
        obtain ⟨me, hme, rfl⟩ := List.mem_map.mp hmem
        exact (readable_left h hme).1
      · intro p hp hpfd
        exact absurd ((hframes p hp).symm.trans hpfd) hfd
  | queued packet =>
      obtain ⟨-, rfl⟩ := Prod.mk.inj (Option.some.inj hserve)
      obtain ⟨rfl, rfl⟩ := Prod.mk.inj (Option.some.inj h)
      exact ⟨rfl, id, by simp⟩
  | fromReader written =>
      obtain ⟨-, rfl⟩ := Prod.mk.inj (Option.some.inj hserve)
      obtain ⟨hsub, htold⟩ := fromReader_told h
      refine ⟨rfl, ?_, ?_⟩
      · intro hmem
        exact (hsub.map _).subset hmem
      · intro p hp hpfd
        obtain ⟨packet, hpacket, me, hme, hfd, htold⟩ := htold p hp
        exact ⟨written, rfl, packet, hpacket, me, hme, hfd.symm.trans hpfd, htold⟩
  | otherThreads server =>
      obtain ⟨-, rfl⟩ := Prod.mk.inj (Option.some.inj hserve)
      obtain ⟨rfl, rfl⟩ := Prod.mk.inj (Option.some.inj h)
      exact ⟨rfl, id, by simp⟩

/-- The client's own event: the connection fails, or the next request is served, and then its reply
is written or the client is let go. -/
theorem served {fd : Fd} {c : Connection} {input : ClientInput} {origin : Origin}
    {requests : List (ℕ × DataPacket)} {l' : Listener} {o : Output}
    (hserve : c.serve fd (.readable fd input) = some (origin, requests))
    (h : listenStep fl c.listener (.readable fd input) = some (l', o)) :
    fd ∈ c.listener.clients.map (·.fd) ∧
      ((requests = c.requests ∧ o.frames = []) ∨
        ∃ n packet, c.requests = (n, packet) :: requests ∧ origin = .reply n ∧
          ((∃ f, o.frames = [(fd, f)]) ∨ (o.frames = [] ∧ fd ∉ l'.clients.map (·.fd)))) := by
  have hleft : fd ∈ l'.clients.map (·.fd) → input.written = true := by
    intro hmem
    obtain ⟨me, hme, hfd⟩ := List.mem_map.mp hmem
    exact (readable_left h hme).2 hfd
  obtain ⟨me, hfind, hclient⟩ := Option.bind_eq_some_iff.mp h
  obtain ⟨hme, rfl⟩ := find_client hfind
  refine ⟨List.mem_map_of_mem hme, ?_⟩
  simp only [Connection.serve, if_true] at hserve
  obtain ⟨hread, -, rfl⟩ | ⟨request, s, ok, frame, hread, -, -, -, rfl⟩ := handleClient_spec hclient
  · rw [hread] at hserve
    obtain ⟨-, rfl⟩ := Prod.mk.inj (Option.some.inj hserve)
    exact .inl ⟨rfl, rfl⟩
  · rw [hread] at hserve
    cases hrequests : c.requests with
    | nil =>
        rw [hrequests] at hserve
        cases hserve
    | cons first rest =>
        obtain ⟨n, packet⟩ := first
        simp only [hrequests] at hserve
        split_ifs at hserve
        obtain ⟨rfl, rfl⟩ := Prod.mk.inj (Option.some.inj hserve)
        refine .inr ⟨n, packet, rfl, rfl, ?_⟩
        by_cases hwritten : input.written = true
        · exact .inl ⟨frame, if_pos hwritten⟩
        · exact .inr ⟨if_neg hwritten, fun hmem => hwritten (hleft hmem)⟩

/-! ### The invariant -/

/-- The request is on its way, or its reply is the next frame, or the daemon has let the client
go. -/
def Awaits (fd : Fd) (c : Connection) (n : ℕ) : Prop :=
  (∃ packet, c.requests = [(n, packet)] ∧ c.frames = []) ∨
    (c.requests = [] ∧ ∃ f rest, c.frames = (.reply n, f) :: rest) ∨
    (c.requests = [] ∧ c.frames = [] ∧ fd ∉ c.listener.clients.map (·.fd))

structure Paired (fd : Fd) (c : Connection) : Prop where
  awaits : ∀ n ∈ c.waiting, Awaits fd c n
  own : ∀ x ∈ c.exchanges, x.Own

/-- Whatever the daemon does under the condition, the next frame is the reply that is waited for. -/
theorem Awaits.daemon {fd : Fd} {c : Connection} {n : ℕ} {e : Event} {origin : Origin}
    {requests : List (ℕ × DataPacket)} {l' : Listener} {o : Output} (hc : Awaits fd c n)
    (hwaiting : c.waiting = some n) (hguard : KeepsPairs fd c (.daemon e))
    (hserve : c.serve fd e = some (origin, requests))
    (h : listenStep fl c.listener e = some (l', o)) :
    Awaits fd { c with
      listener := l'
      requests := requests
      frames := c.frames ++ (o.frames.filter (·.1 = fd)).map (fun p => (origin, p.2)) } n := by
  by_cases hown : ∃ input, e = .readable fd input
  · obtain ⟨input, rfl⟩ := hown
    obtain ⟨hin, hserved⟩ := served hserve h
    obtain ⟨packet, hrequests, hframes⟩ | ⟨hrequests, f, rest, hframes⟩ | ⟨-, -, hgone⟩ := hc
    · obtain ⟨rfl, hnone⟩ | ⟨m, packet', hhead, rfl, hwritten⟩ := hserved
      · exact .inl ⟨packet, hrequests, by simp [hframes, hnone]⟩
      · rw [hrequests] at hhead
        obtain ⟨hfirst, rfl⟩ := List.cons.inj hhead
        obtain ⟨rfl, -⟩ := Prod.mk.inj hfirst
        obtain ⟨f, hwritten⟩ | ⟨hnone, hgone⟩ := hwritten
        · exact .inr (.inl ⟨rfl, f, [], by simp [hframes, hwritten]⟩)
        · exact .inr (.inr ⟨rfl, by simp [hframes, hnone], hgone⟩)
    · obtain ⟨rfl, -⟩ | ⟨m, packet', hhead, -⟩ := hserved
      · exact .inr (.inl ⟨hrequests, f, _, by rw [hframes]; rfl⟩)
      · rw [hrequests] at hhead
        cases hhead
    · exact absurd hin hgone
  · obtain ⟨rfl, hstay, htold⟩ := elsewhere (fun input heq => hown ⟨input, heq⟩) hserve h
    have hnone (hsilent : ∀ written, e = .fromReader written → ∀ packet ∈
        c.listener.recvList.head?, ∀ me ∈ c.listener.clients, me.fd = fd → ¬told packet me) :
        o.frames.filter (·.1 = fd) = [] := by
      rw [List.filter_eq_nil_iff]
      intro p hp hfd
      obtain ⟨written, he, packet, hpacket, me, hme, hmefd, hmetold⟩ :=
        htold p hp (of_decide_eq_true hfd)
      exact hsilent written he packet hpacket me hme hmefd hmetold
    obtain ⟨packet, hrequests, hframes⟩ | ⟨hrequests, f, rest, hframes⟩ |
      ⟨hrequests, hframes, hgone⟩ := hc
    · refine .inl ⟨packet, hrequests, ?_⟩
      have hsilent := hnone (by
        rintro written rfl
        exact hguard ⟨by rw [hwaiting]; rfl, by rw [hrequests]; simp⟩)
      simp [hframes, hsilent]
    · exact .inr (.inl ⟨hrequests, f, _, by rw [hframes]; rfl⟩)
    · refine .inr (.inr ⟨hrequests, ?_, fun hmem => hgone (hstay hmem)⟩)
      have hsilent := hnone (by
        rintro written - packet - me hme hfd -
        exact hgone (hfd ▸ List.mem_map_of_mem hme))
      simp [hframes, hsilent]

/-- A transaction that is over returned the reply to its request, or nothing. -/
theorem Paired.finish {fd : Fd} {c : Connection} {n : ℕ} {written : Bool}
    {answer : Option (Origin × Frame)} (hown : ∀ x ∈ c.exchanges, x.Own)
    (hanswer : ∀ a ∈ answer, a.1 = .reply n) : Paired fd (c.finish n written answer) := by
  refine ⟨by simp [Connection.finish], ?_⟩
  intro x hx
  cases List.mem_append.mp hx with
  | inl hold => exact hown x hold
  | inr hnew =>
      rw [List.mem_singleton.mp hnew]
      intro r hr
      obtain ⟨packet, -, hr⟩ := Option.bind_eq_some_iff.mp hr
      obtain ⟨a, ha, rfl⟩ := Option.map_eq_some_iff.mp hr
      exact hanswer a ha

theorem connectionStep_paired {fd : Fd} (c : Connection) (m : Move) (c' : Connection) (u : Unit)
    (hc : Paired fd c) (hguard : KeepsPairs fd c m)
    (h : connectionStep fl fd c m = some (c', u)) : Paired fd c' := by
  cases m with
  | request packet written =>
      simp only [connectionStep] at h
      split_ifs at h with hwaiting
      obtain ⟨rfl, -⟩ := Prod.mk.inj (Option.some.inj h)
      cases written with
      | true =>
          obtain ⟨hrequests, hframes⟩ := hguard rfl
          refine ⟨?_, hc.own⟩
          intro n hn
          obtain rfl := Option.some.inj hn
          exact .inl ⟨packet, by simp [Connection.request, hrequests], hframes⟩
      | false => exact Paired.finish hc.own nofun
  | response =>
      simp only [connectionStep] at h
      cases hwaiting : c.waiting with
      | none => simp [hwaiting] at h
      | some n =>
          cases hframes : c.frames with
          | nil => simp [hwaiting, hframes] at h
          | cons f rest =>
              simp only [hwaiting, hframes] at h
              obtain ⟨rfl, -⟩ := Prod.mk.inj (Option.some.inj h)
              have hown : ∀ x ∈ ({ c with frames := rest, waiting := some n } :
                  Connection).exchanges, x.Own := hc.own
              apply Paired.finish hown
              intro a ha
              obtain rfl := Option.some.inj ha
              obtain ⟨-, -, hnil⟩ | ⟨-, f', rest', hcons⟩ | ⟨-, hnil, -⟩ := hc.awaits n hwaiting
              · rw [hframes] at hnil
                cases hnil
              · rw [hframes] at hcons
                rw [(List.cons.inj hcons).1]
              · rw [hframes] at hnil
                cases hnil
  | timeout =>
      simp only [connectionStep] at h
      cases hwaiting : c.waiting with
      | none => simp [hwaiting] at h
      | some n =>
          cases hframes : c.frames with
          | nil =>
              simp only [hwaiting, hframes] at h
              obtain ⟨rfl, -⟩ := Prod.mk.inj (Option.some.inj h)
              exact Paired.finish hc.own nofun
          | cons f rest => simp [hwaiting, hframes] at h
  | read =>
      simp only [connectionStep] at h
      split_ifs at h with hwaiting
      obtain ⟨rfl, -⟩ := Prod.mk.inj (Option.some.inj h)
      refine ⟨?_, hc.own⟩
      intro n hn
      exact absurd (by rw [hn]; rfl) hwaiting
  | daemon e =>
      simp only [connectionStep, Option.bind_eq_bind, Option.bind_eq_some_iff, Prod.exists] at h
      obtain ⟨origin, requests, hserve, l', o, hstep, h⟩ := h
      obtain ⟨rfl, -⟩ := Prod.mk.inj (Option.some.inj h)
      refine ⟨?_, hc.own⟩
      intro n hn
      exact (hc.awaits n hn).daemon hn hguard hserve hstep

/-- **Requests are paired with their replies** in every run of transactions on a connection, if
each request is written when nothing is left on the way and no signal is told to the program
before the daemon serves it. -/
theorem transactions_paired {fd : Fd} {l : Listener} {moves : List Move} {c : Connection}
    {outputs : List Unit}
    (h : Transition.run (connectionStep fl fd) (.start l) moves = some (c, outputs))
    (hguard : Transition.Guarded (connectionStep fl fd) (KeepsPairs fd) (.start l) moves) :
    ∀ x ∈ c.exchanges, x.Own := by
  refine (Transition.run_invariant connectionStep_paired moves _ c outputs ?_ hguard h).own
  exact ⟨nofun, nofun⟩

/-- A worker whose only client has just connected. -/
def connectedWorker : Listener := { receivingWorker with clients := [⟨3, 0, 0⟩] }

/-- A transaction without data that is served at once. -/
def bareTransaction (code : Byte) : List Move :=
  [.request ⟨code, 0, none⟩ true, .daemon (bareEvent code), .response]

/-- The client turns the receiver on, and a signal comes in. -/
def receivingMoves : List Move :=
  [.request ⟨IG_EXCH_VERSIONS, 2, some [1, 0]⟩ true,
    .daemon (.readable 3 ⟨.whole IG_EXCH_VERSIONS 2 [1, 0], 0, true, true⟩), .response] ++
    bareTransaction IG_DEV_RECVON ++ [.daemon (.queued ⟨IG_DEV_RECV, 2, some [0x05, 0x85]⟩)]

/-- The program reads the signal before it asks for the carrier. -/
theorem transactions_paired_receiving : ∃ c outputs,
    Transition.run (connectionStep Binary64.nearest 3) (.start connectedWorker)
      (receivingMoves ++ [.daemon (.fromReader (fun _ => true)), .read] ++
        bareTransaction IG_DEV_GETCARRIER) = some (c, outputs) ∧
    ∀ x ∈ c.exchanges, x.Own :=
  have hguard : Transition.Guarded (connectionStep Binary64.nearest 3) (KeepsPairs 3)
      (.start connectedWorker) (receivingMoves ++ [.daemon (.fromReader (fun _ => true)), .read] ++
        bareTransaction IG_DEV_GETCARRIER) := by decide
  ⟨_, _, rfl, transactions_paired rfl hguard⟩

/-- The signal is taken for the carrier, and the carrier for the location. -/
theorem transactions_not_paired : ∃ c outputs,
    Transition.run (connectionStep Binary64.nearest 3) (.start connectedWorker)
      (receivingMoves ++ [.request ⟨IG_DEV_GETCARRIER, 0, none⟩ true,
        .daemon (.fromReader (fun _ => true)), .daemon (bareEvent IG_DEV_GETCARRIER), .response] ++
        bareTransaction IG_DEV_GETLOCATION) = some (c, outputs) ∧
    c.exchanges.map (fun x => (x.request, x.returned.map (·.1))) =
      [(0, some (.reply 0)), (1, some (.reply 1)), (2, some .signal), (3, some (.reply 2))] ∧
    ¬∀ x ∈ c.exchanges, x.Own := by
  refine ⟨_, _, rfl, rfl, ?_⟩
  intro h
  have hlast := h _ (List.getLast_mem (List.cons_ne_nil _ _)) _ rfl
  cases hlast

end IguanaIR
