import IguanaIR.SignalDelivery
import IguanaIR.WritePacket

/-! # The streams of the clients

The listener together with what each client's socket has taken since it was connected.  A reply
that cannot be written costs the client its connection, but a broadcast keeps the client
whatever becomes of the write.  A frame that was cut short is then followed by the next one.

An event comes with the kernel's answers for every descriptor.  They decide which writes succeed,
so the flags of the event itself do not count. -/

namespace IguanaIR

open Framing

variable {fl : ℚ → ℚ}

/-! ### The listener with its sockets -/

structure Sockets where
  listener : Listener
  /-- The pieces that each descriptor has taken since it was connected. -/
  taken : Fd → List (List Byte)

/-- The event with these writes succeeding. -/
def Event.withWritten (written : Fd → Bool) : Event → Event
  | .readable fd input => .readable fd { input with written := written fd }
  | .fromReader _ => .fromReader written
  | e => e

/-- The frames that the event makes the daemon write, whatever becomes of them. -/
def attempts (fl : ℚ → ℚ) (l : Listener) (e : Event) : Option (List (Fd × Frame)) :=
  (listenStep fl l (e.withWritten (fun _ => true))).map (·.2.frames)

/-- One write: its descriptor, the pieces that were taken, and its success. -/
structure Write where
  fd : Fd
  pieces : List (List Byte)
  ok : Bool

def writeFrames (answers : Fd → WriteAnswers) : List (Fd × Frame) → Option (List Write)
  | [] => some []
  | (fd, f) :: rest => do
      let (pieces, ok) ← writeDataPacket f (answers fd)
      let writes ← writeFrames answers rest
      some (⟨fd, pieces, ok⟩ :: writes)

/-- Did every write to the descriptor succeed? -/
def written (writes : List Write) (fd : Fd) : Bool := writes.all (fun w => w.fd != fd || w.ok)

/-- A new connection has taken nothing. -/
def taking (taken : Fd → List (List Byte)) (writes : List Write) : Event → Fd → List (List Byte)
  | .connected fd => Function.update taken fd []
  | _ => fun fd => taken fd ++ (writes.filter (·.fd = fd)).flatMap (·.pieces)

def socketStep (fl : ℚ → ℚ) (s : Sockets) (e : Event × (Fd → WriteAnswers)) :
    Option (Sockets × Output) := do
  let frames ← attempts fl s.listener e.1
  let writes ← writeFrames e.2 frames
  let (l, o) ← listenStep fl s.listener (e.1.withWritten (written writes))
  some (⟨l, taking s.taken writes e.1⟩, o)

/-- At every moment the stream is a sequence of complete frames and the start of at most one, which
is completed next. -/
def StreamFramed (pieces : List (List Byte)) : Prop :=
  ∀ k, FramedAt IsFrame (pieces.take k).flatten (pieces.drop k).flatten

/-- A broadcast cuts no frame short: each socket takes all of it or nothing. -/
def KeepsFrames (fl : ℚ → ℚ) (s : Sockets) : Event × (Fd → WriteAnswers) → Prop
  | (.fromReader w, answers) => ∀ frames ∈ attempts fl s.listener (.fromReader w),
      ∀ p ∈ frames, (answers p.1).takes p.2 ∨ (answers p.1).refuses
  | _ => True

instance : DecidableRel (KeepsFrames fl)
  | s, (.fromReader w, answers) => inferInstanceAs (Decidable (∀ frames ∈ attempts fl s.listener
      (.fromReader w), ∀ p ∈ frames, (answers p.1).takes p.2 ∨ (answers p.1).refuses))
  | _, (.connected _, _) | _, (.readable _ _, _) | _, (.queued _, _) | _, (.otherThreads _, _) =>
      isTrue trivial

/-! ### Frames that are written -/

/-- It is enough to look at the end. -/
theorem streamFramed_iff (pieces : List (List Byte)) :
    StreamFramed pieces ↔ Whole IsFrame pieces.flatten := by
  constructor
  · intro h
    have hend := h pieces.length
    rw [List.take_length, List.drop_length] at hend
    exact hend.whole
  · intro h k
    apply Whole.framedAt
    rwa [← List.flatten_append, List.take_append_drop]

/-- The frames that the daemon writes have the payload that their length says. -/
def Filled (p : Fd × Frame) : Prop := p.2.payload.length = p.2.dataLen.toNat

/-- Writes that succeed, or take nothing, leave a whole number of frames on each stream. -/
theorem writeFrames_whole {answers : Fd → WriteAnswers} : ∀ {frames : List (Fd × Frame)}
    {writes : List Write}, (∀ p ∈ frames, Filled p) → writeFrames answers frames = some writes →
      ∀ fd, (∀ p ∈ frames, p.1 = fd → (answers fd).takes p.2 ∨ (answers fd).refuses) →
        Whole IsFrame ((writes.filter (·.fd = fd)).flatMap (·.pieces)).flatten
  | [], writes, _, h, fd, _ => by
      obtain rfl := Option.some.inj h
      exact whole_nil
  | (fd', f) :: rest, writes, hfilled, h, fd, hfits => by
      simp only [writeFrames, Option.bind_eq_bind, Option.bind_eq_some_iff, Prod.exists] at h
      obtain ⟨pieces, ok, hwrite, writes', hrest, h⟩ := h
      obtain rfl := Option.some.inj h
      have ih := writeFrames_whole (fun p hp => hfilled p (List.mem_cons_of_mem _ hp)) hrest fd
        (fun p hp => hfits p (List.mem_cons_of_mem _ hp))
      obtain ⟨hok, hwhole, hnone⟩ :=
        writeDataPacket_spec (hfilled (fd', f) (List.mem_cons_self ..)) hwrite
      by_cases hfd : fd' = fd
      · subst hfd
        rw [List.filter_cons_of_pos (by simp), List.flatMap_cons, List.flatten_append]
        refine Whole.append ?_ ih
        cases hfits (fd', f) (List.mem_cons_self ..) rfl with
        | inl htakes => exact whole_of_frame (hwhole (hok.mpr htakes))
        | inr hrefuses =>
            rw [hnone hrefuses]
            exact whole_nil
      · rw [List.filter_cons_of_neg (by simpa using hfd)]
        exact ih

/-- Writes that succeed were taken whole. -/
theorem written_takes {answers : Fd → WriteAnswers} : ∀ {frames : List (Fd × Frame)}
    {writes : List Write}, (∀ p ∈ frames, Filled p) → writeFrames answers frames = some writes →
      ∀ fd, written writes fd = true → ∀ p ∈ frames, p.1 = fd → (answers fd).takes p.2
  | [], _, _, _, _, _, p, hp, _ => absurd hp (by simp)
  | (fd', f) :: rest, writes, hfilled, h, fd, hall, p, hp, hfd => by
      simp only [writeFrames, Option.bind_eq_bind, Option.bind_eq_some_iff, Prod.exists] at h
      obtain ⟨pieces, ok, hwrite, writes', hrest, h⟩ := h
      obtain rfl := Option.some.inj h
      simp only [written, List.all_cons, Bool.and_eq_true] at hall
      obtain ⟨hfirst, hall⟩ := hall
      cases List.mem_cons.mp hp with
      | inl heq =>
          subst heq
          simp only at hfd
          subst hfd
          have hspec := writeDataPacket_spec (hfilled _ (List.mem_cons_self ..)) hwrite
          exact hspec.1.mp (by simpa using hfirst)
      | inr hmem =>
          exact written_takes (fun p hp => hfilled p (List.mem_cons_of_mem _ hp)) hrest fd hall p
            hmem hfd

/-! ### Which clients are left -/

/-- A client that is left behind a readable event has the descriptor of an earlier one, and if it
is the one that was read from, its reply was written. -/
theorem readable_left {l l' : Listener} {fd : Fd} {input : ClientInput} {o : Output}
    (h : listenStep fl l (.readable fd input) = some (l', o)) {c : Client} (hc : c ∈ l'.clients) :
    c.fd ∈ l.clients.map (·.fd) ∧ (c.fd = fd → input.written = true) := by
  obtain ⟨me, hfind, hclient⟩ := Option.bind_eq_some_iff.mp h
  obtain ⟨-, rfl⟩ := find_client hfind
  obtain ⟨hold, hstays⟩ := (handleClient_fds hclient c.fd).mp (List.mem_map_of_mem hc)
  exact ⟨hold, fun heq => (hstays heq).2⟩

/-! ### The frames of an event -/

theorem forEach_filled {action : Client → Option (Bool × List (Fd × Frame))}
    (haction : ∀ me stays frames, action me = some (stays, frames) → ∀ p ∈ frames, Filled p) :
    ∀ {clients clients' : List Client} {frames : List (Fd × Frame)},
      forEach action clients = some (clients', frames) → ∀ p ∈ frames, Filled p
  | [], _, frames, h, p, hp => by
      obtain ⟨-, rfl⟩ := Prod.mk.inj (Option.some.inj h)
      simp at hp
  | me :: rest, clients', frames, h, p, hp => by
      simp only [forEach, Option.bind_eq_bind, Option.bind_eq_some_iff, Prod.exists] at h
      obtain ⟨stays, more, hme, rest', frames', hrest, h⟩ := h
      obtain ⟨-, rfl⟩ := Prod.mk.inj (Option.some.inj h)
      cases List.mem_append.mp hp with
      | inl h => exact haction me stays more hme p h
      | inr h => exact forEach_filled haction hrest p h

theorem tellReceivers_filled {packet : DataPacket} {translated : Bool} {written : Fd → Bool}
    {me : Client} {stays : Bool} {frames : List (Fd × Frame)}
    (h : tellReceivers packet translated written me = some (stays, frames)) :
    ∀ p ∈ frames, Filled p := by
  intro p hp
  unfold tellReceivers at h
  by_cases hhears : (me.receiving = IG_DEV_RECVON ∧ translated = true) ∨
      (me.receiving = IG_DEV_RAWRECVON ∧ ¬translated = true)
  · rw [if_pos hhears] at h
    cases hcode : translateProtocol packet.code me.version true with
    | none =>
        simp only [hcode] at h
        obtain ⟨-, rfl⟩ := Prod.mk.inj (Option.some.inj h)
        simp at hp
    | some code =>
        simp only [hcode] at h
        obtain ⟨frame, hframe, h⟩ := Option.map_eq_some_iff.mp h
        obtain ⟨-, rfl⟩ := Prod.mk.inj h
        have hmem : p ∈ [(me.fd, frame)] := by
          split_ifs at hp
          · exact hp
          · simp at hp
        rw [List.mem_singleton.mp hmem]
        exact DataPacket.frame_payload hframe
  · rw [if_neg hhears] at h
    obtain ⟨-, rfl⟩ := Prod.mk.inj (Option.some.inj h)
    simp at hp

theorem tellPacket_filled {packet : DataPacket} {written : Fd → Bool}
    {clients clients' : List Client} {frames : List (Fd × Frame)}
    (h : tellPacket packet written clients = some (clients', frames)) :
    ∀ p ∈ frames, Filled p := by
  unfold tellPacket at h
  split_ifs at h
  · simp only [tellSignal, Option.bind_eq_bind, Option.bind_eq_some_iff, Prod.exists] at h
    obtain ⟨clients₁, raw, h₁, bytes, -, words, -, clients₂, translated, h₂, h⟩ := h
    obtain ⟨-, rfl⟩ := Prod.mk.inj (Option.some.inj h)
    intro p hp
    cases List.mem_append.mp hp with
    | inl h => exact forEach_filled (fun _ _ _ => tellReceivers_filled) h₁ p h
    | inr h => exact forEach_filled (fun _ _ _ => tellReceivers_filled) h₂ p h
  · exact forEach_filled (fun _ _ _ => tellReceivers_filled) h
  · obtain ⟨-, rfl⟩ := Prod.mk.inj (Option.some.inj h)
    intro p hp
    simp at hp

/-- Every frame that is written is filled, and a reply goes to the client that asked. -/
theorem listenStep_frames {l l' : Listener} {e : Event} {o : Output}
    (h : listenStep fl l e = some (l', o)) :
    (∀ p ∈ o.frames, Filled p) ∧
      match e with
      | .readable fd _ => ∀ p ∈ o.frames, p.1 = fd
      | .fromReader _ => True
      | _ => o.frames = [] := by
  cases e with
  | connected fd =>
      obtain ⟨l₁, -, h⟩ := Option.map_eq_some_iff.mp h
      obtain ⟨-, rfl⟩ := Prod.mk.inj h
      exact ⟨by simp, rfl⟩
  | queued packet =>
      obtain ⟨-, rfl⟩ := Prod.mk.inj (Option.some.inj h)
      exact ⟨by simp, rfl⟩
  | otherThreads server =>
      obtain ⟨-, rfl⟩ := Prod.mk.inj (Option.some.inj h)
      exact ⟨by simp, rfl⟩
  | fromReader w =>
      refine ⟨?_, trivial⟩
      simp only [listenStep, handleReader] at h
      cases hrecv : l.recvList with
      | nil =>
          rw [hrecv] at h
          cases h
      | cons packet rest =>
          rw [hrecv] at h
          obtain ⟨⟨clients, frames⟩, htell, h⟩ := Option.map_eq_some_iff.mp h
          obtain ⟨-, rfl⟩ := Prod.mk.inj h
          exact tellPacket_filled htell
  | readable fd input =>
      obtain ⟨me, hfind, hclient⟩ := Option.bind_eq_some_iff.mp h
      obtain ⟨-, rfl⟩ := find_client hfind
      obtain ⟨-, -, rfl⟩ | ⟨request, s, ok, frame, -, -, hframe, -, rfl⟩ := handleClient_spec hclient
      · exact ⟨by simp, by simp⟩
      · constructor
        · intro p hp
          split_ifs at hp
          · obtain rfl := List.mem_singleton.mp hp
            exact DataPacket.frame_payload hframe
          · simp at hp
        · intro p hp
          split_ifs at hp
          · rw [List.mem_singleton.mp hp]
          · simp at hp

/-! ### Runs -/

/-- The stream of every connected client is whole. -/
def Streaming (s : Sockets) : Prop :=
  ∀ c ∈ s.listener.clients, Whole IsFrame (s.taken c.fd).flatten

/-- Whoever is left behind an event was there before, if it is not the connection of a client, and
what its socket took of the event's frames is whole. -/
theorem left_whole {s : Sockets} {e : Event} {answers : Fd → WriteAnswers} {l' : Listener}
    {o : Output} {frames : List (Fd × Frame)} {writes : List Write}
    (hkeeps : KeepsFrames fl s (e, answers)) (hnew : ∀ fd, e ≠ .connected fd)
    (hframes : attempts fl s.listener e = some frames)
    (hwrites : writeFrames answers frames = some writes)
    (h : listenStep fl s.listener (e.withWritten (written writes)) = some (l', o))
    {c : Client} (hc : c ∈ l'.clients) :
    c.fd ∈ s.listener.clients.map (·.fd) ∧
      Whole IsFrame ((writes.filter (·.fd = c.fd)).flatMap (·.pieces)).flatten := by
  obtain ⟨⟨l₁, o₁⟩, htry, rfl⟩ := Option.map_eq_some_iff.mp hframes
  obtain ⟨hfilled, hfds⟩ := listenStep_frames htry
  have hmore := writeFrames_whole hfilled hwrites c.fd
  cases e with
  | connected fd => exact absurd rfl (hnew fd)
  | queued packet =>
      obtain ⟨rfl, -⟩ := Prod.mk.inj (Option.some.inj h)
      refine ⟨List.mem_map_of_mem hc, hmore ?_⟩
      intro p hp
      rw [show o₁.frames = [] from hfds] at hp
      simp at hp
  | otherThreads server =>
      obtain ⟨rfl, -⟩ := Prod.mk.inj (Option.some.inj h)
      refine ⟨List.mem_map_of_mem hc, hmore ?_⟩
      intro p hp
      rw [show o₁.frames = [] from hfds] at hp
      simp at hp
  | readable fd input =>
      obtain ⟨hold, hok⟩ := readable_left h hc
      refine ⟨hold, hmore ?_⟩
      intro p hp hfd
      have hpfd : p.1 = fd := hfds p hp
      have hread : c.fd = fd := hfd.symm.trans hpfd
      have hall : written writes fd = true := hok hread
      rw [← hread] at hall
      exact .inl (written_takes hfilled hwrites c.fd hall p hp hfd)
  | fromReader w =>
      constructor
      · exact List.mem_map_of_mem ((handleReader_sublist h).subset hc)
      · apply hmore
        intro p hp hfd
        rw [← hfd]
        exact hkeeps o₁.frames (by rw [hframes]; rfl) p hp

theorem socketStep_streaming (s : Sockets) (e : Event × (Fd → WriteAnswers)) (s' : Sockets)
    (o : Output) (hs : Streaming s) (hkeeps : KeepsFrames fl s e)
    (h : socketStep fl s e = some (s', o)) : Streaming s' := by
  obtain ⟨e, answers⟩ := e
  simp only [socketStep, Option.bind_eq_bind, Option.bind_eq_some_iff, Prod.exists] at h
  obtain ⟨frames, hframes, writes, hwrites, l', o', hstep, h⟩ := h
  obtain ⟨rfl, -⟩ := Prod.mk.inj (Option.some.inj h)
  intro c hc
  have hstay (hnew : ∀ fd, e ≠ .connected fd) :
      Whole IsFrame (s.taken c.fd ++ (writes.filter (·.fd = c.fd)).flatMap (·.pieces)).flatten := by
    obtain ⟨hold, hwhole⟩ := left_whole hkeeps hnew hframes hwrites hstep hc
    obtain ⟨c₀, hc₀, hfd⟩ := List.mem_map.mp hold
    have hbefore := hs c₀ hc₀
    rw [hfd] at hbefore
    rw [List.flatten_append]
    exact hbefore.append hwhole
  cases e with
  | connected fd =>
      obtain ⟨l₁, hconnect, h₁⟩ := Option.map_eq_some_iff.mp hstep
      obtain ⟨rfl, -⟩ := Prod.mk.inj h₁
      simp only [clientConnected] at hconnect
      split_ifs at hconnect with hfd
      obtain rfl := Option.some.inj hconnect
      simp only [taking]
      cases List.mem_append.mp hc with
      | inl hold =>
          have hne : c.fd ≠ fd := by
            intro heq
            exact hfd (heq ▸ List.mem_map_of_mem hold)
          rw [Function.update_of_ne hne]
          exact hs c hold
      | inr hme =>
          rw [List.mem_singleton.mp hme, Function.update_self]
          exact whole_nil
  | readable fd input => exact hstay nofun
  | queued packet => exact hstay nofun
  | fromReader w => exact hstay nofun
  | otherThreads server => exact hstay nofun

/-- A listener without clients. -/
def Sockets.start (server : Server) (device : Option Device) : Sockets :=
  ⟨⟨server, device, [], []⟩, fun _ => []⟩

/-- **The streams of the clients are framed** in every run whose broadcasts cut no frame short:
whoever is still connected has read, at every moment since it was connected, complete frames and
the start of at most one, which is completed next. -/
theorem streams_framed {server : Server} {device : Option Device}
    {events : List (Event × (Fd → WriteAnswers))} {s : Sockets} {outputs : List Output}
    (h : Transition.run (socketStep fl) (.start server device) events = some (s, outputs))
    (hkeeps : Transition.Guarded (socketStep fl) (KeepsFrames fl) (.start server device) events) :
    ∀ c ∈ s.listener.clients, StreamFramed (s.taken c.fd) := by
  intro c hc
  apply (streamFramed_iff _).mpr
  refine Transition.run_invariant (I := Streaming) socketStep_streaming events _ s outputs ?_ hkeeps
    h c hc
  intro c hc
  simp [Sockets.start] at hc

/-- A socket that takes any frame of up to 1000 bytes of data. -/
def ample : WriteAnswers := ⟨fun _ => 0, ⟨.ready, [some PACKET_BYTES]⟩, ⟨.ready, [some 1000]⟩⟩

theorem streams_framed_ample : ∃ s outputs,
    Transition.run (socketStep Binary64.nearest)
      (.start receivingWorker.server receivingWorker.device)
      ((signalEvents IG_DEV_RECVON).map (·, fun _ => ample)) = some (s, outputs) ∧
    ∀ c ∈ s.listener.clients, StreamFramed (s.taken c.fd) :=
  have hguard : Transition.Guarded (socketStep Binary64.nearest) (KeepsFrames Binary64.nearest)
      (.start receivingWorker.server receivingWorker.device)
      ((signalEvents IG_DEV_RECVON).map (·, fun _ => ample)) := by decide
  ⟨_, _, rfl, streams_framed rfl hguard⟩

/-- The first frame of a stream is as long as its header says. -/
theorem drop_frame {s : List Byte} (h : Whole IsFrame s) (hne : s ≠ []) :
    PACKET_BYTES + (headerFields s).2.toInt.toNat ≤ s.length ∧
      Whole IsFrame (s.drop (PACKET_BYTES + (headerFields s).2.toInt.toNat)) := by
  obtain rfl | ⟨f, t, ⟨memory, code, length, payload, rfl, hlen⟩, ht, rfl⟩ := h.cases_head
  · exact absurd rfl hne
  · rw [List.append_assoc, headerFields_headerBytes, ← hlen, ← List.append_assoc]
    have hsum : PACKET_BYTES + payload.length =
        (headerBytes memory code length ++ payload).length := by
      rw [List.length_append, headerBytes_length]
    rw [hsum, List.drop_left]
    exact ⟨by simp, ht⟩

/-- A signal of which the socket takes one byte, and another one. -/
def cutEvents : List (Event × (Fd → WriteAnswers)) :=
  ((signalEvents IG_DEV_RECVON).take 4).map (·, fun _ => ample) ++
    [(.fromReader (fun _ => true), fun _ => ⟨fun _ => 0, ⟨.ready, [some 1]⟩, ⟨.ready, []⟩⟩)] ++
    ((signalEvents IG_DEV_RECVON).drop 3).map (·, fun _ => ample)

set_option maxRecDepth 4000 in
/-- The client is still there, and reads bytes of the second signal as a header that starts with
the byte of the first. -/
theorem streams_not_framed : ∃ s outputs,
    Transition.run (socketStep Binary64.nearest)
      (.start receivingWorker.server receivingWorker.device) cutEvents = some (s, outputs) ∧
    ∃ c ∈ s.listener.clients, ¬StreamFramed (s.taken c.fd) := by
  refine ⟨_, _, rfl, _, List.mem_cons_self .., ?_⟩
  intro h
  have h₀ := (streamFramed_iff _).mp h
  obtain ⟨-, h₁⟩ := drop_frame h₀ (by decide)
  obtain ⟨-, h₂⟩ := drop_frame h₁ (by decide)
  exact absurd (drop_frame h₂ (by decide)).1 (by decide)

end IguanaIR
