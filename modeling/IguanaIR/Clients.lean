import IguanaIR.Listener
import IguanaIR.Requests
import IguanaIR.Transition

/-! # The list of clients

What the steps of the listener do to the clients on its list and to the books of its device,
where descriptors are distinct: a request changes one client, a release takes one away, and
turning the receiver off or reading the label keeps the books. -/

namespace IguanaIR

variable {fl : ℚ → ℚ}

/-! ### One client of the list -/

/-- Descriptors belong to one client each. -/
def Distinct (clients : List Client) : Prop := (clients.map (·.fd)).Nodup

theorem Distinct.length_le {clients : List Client} (h : Distinct clients) :
    clients.length ≤ 2 ^ 31 := by
  have hcard := List.Nodup.length_le_card h
  rwa [List.length_map, Fintype.card_fin] at hcard

theorem find_client {clients : List Client} {fd : Fd} {me : Client}
    (h : clients.find? (·.fd = fd) = some me) : me ∈ clients ∧ me.fd = fd :=
  ⟨List.mem_of_find?_eq_some h, by simpa using List.find?_some h⟩

theorem updateClient_fds (clients : List Client) (me : Client) :
    (updateClient clients me).map (·.fd) = clients.map (·.fd) := by
  unfold updateClient
  rw [List.map_map]
  refine List.map_congr_left fun c _ => ?_
  simp only [Function.comp]
  split_ifs with h
  · exact h.symm
  · rfl

theorem Distinct.update {clients : List Client} (h : Distinct clients) (me : Client) :
    Distinct (updateClient clients me) := by
  unfold Distinct
  rwa [updateClient_fds]

theorem Distinct.remove {clients : List Client} (h : Distinct clients) (fd : Fd) :
    Distinct (removeClient clients fd) := by
  unfold removeClient
  exact h.sublist (List.filter_sublist.map _)

theorem Distinct.connect {clients : List Client} (h : Distinct clients) {fd : Fd}
    (hfd : fd ∉ clients.map (·.fd)) : Distinct (clients ++ [⟨fd, 0, 0⟩]) := by
  unfold Distinct
  rw [List.map_append, List.map_singleton, ← List.concat_eq_append, List.nodup_concat]
  exact ⟨hfd, h⟩

theorem updateClient_of_not_mem {clients : List Client} {me : Client}
    (h : ∀ c ∈ clients, c.fd ≠ me.fd) : updateClient clients me = clients :=
  (List.map_congr_left (fun c hc => if_neg (h c hc))).trans (List.map_id _)

theorem removeClient_of_not_mem {clients : List Client} {fd : Fd}
    (h : ∀ c ∈ clients, c.fd ≠ fd) : removeClient clients fd = clients :=
  List.filter_eq_self.mpr (fun c hc => by simpa using h c hc)

/-- The list around one client: what becomes of it when the client changes or goes. -/
theorem split_client {clients : List Client} {me : Client} (hd : Distinct clients)
    (hme : me ∈ clients) : ∃ before after, clients = before ++ me :: after ∧
      removeClient clients me.fd = before ++ after ∧
      ∀ me' : Client, me'.fd = me.fd → updateClient clients me' = before ++ me' :: after := by
  obtain ⟨before, after, rfl⟩ := List.append_of_mem hme
  unfold Distinct at hd
  rw [List.map_append, List.map_cons, List.nodup_middle, List.nodup_cons, ← List.map_append] at hd
  have hother : ∀ c ∈ before ++ after, c.fd ≠ me.fd := fun c hc heq =>
    hd.1 (heq ▸ List.mem_map_of_mem hc)
  have hbefore : ∀ c ∈ before, c.fd ≠ me.fd := fun c hc => hother c (List.mem_append_left _ hc)
  have hafter : ∀ c ∈ after, c.fd ≠ me.fd := fun c hc => hother c (List.mem_append_right _ hc)
  refine ⟨before, after, rfl, ?_, fun me' hfd => ?_⟩
  · have hgone : removeClient (me :: after) me.fd = removeClient after me.fd := by
      simp [removeClient]
    have happ : removeClient (before ++ me :: after) me.fd =
        removeClient before me.fd ++ removeClient (me :: after) me.fd := List.filter_append _ _
    rw [happ, hgone, removeClient_of_not_mem hbefore, removeClient_of_not_mem hafter]
  · have hhere : updateClient (me :: after) me' = me' :: updateClient after me' := by
      simp [updateClient, hfd]
    have happ : updateClient (before ++ me :: after) me' =
        updateClient before me' ++ updateClient (me :: after) me' := List.map_append
    rw [happ, hhere, updateClient_of_not_mem (by rwa [hfd]), updateClient_of_not_mem (by rwa [hfd])]

/-! ### Releasing a client, reading the label -/

/-- The books of the listener's device. -/
def Listener.books (l : Listener) : Option (Version × BitVec 32) := l.device.map Device.books

theorem dropReceiver_books {d d' : Device} (h : dropReceiver fl d = some d') :
    d'.books = (d.idev.version, d.idev.receiverCount - 1) := by
  unfold dropReceiver at h
  dsimp only at h
  split_ifs at h
  · obtain ⟨⟨d₁, a⟩, ht, rfl⟩ := Option.map_eq_some_iff.mp h
    rw [(deviceTransaction_keeps ht).books]
    rfl
  · obtain rfl := Option.some.inj h
    rfl

/-- A release takes the client off the list, and off the books if it was receiving. -/
theorem releaseClient_spec {l l' : Listener} {me : Client} (h : releaseClient fl l me = some l') :
    l'.clients = removeClient l.clients me.fd ∧ l'.recvList = l.recvList ∧
      l'.books = if me.receiving = 0 then l.books else l.books.map (fun b => (b.1, b.2 - 1)) := by
  unfold releaseClient at h
  by_cases hme : me.receiving = 0
  · rw [if_neg (not_not.mpr hme)] at h
    obtain rfl := Option.some.inj h
    exact ⟨rfl, rfl, (if_pos hme).symm⟩
  · rw [if_pos hme] at h
    obtain ⟨d', hd', rfl⟩ := Option.map_eq_some_iff.mp h
    obtain ⟨d, hd, hdrop⟩ := Option.bind_eq_some_iff.mp hd'
    refine ⟨rfl, rfl, ?_⟩
    rw [if_neg hme, Listener.books, Listener.books, hd, Option.map_some, Option.map_some,
      Option.map_some, dropReceiver_books hdrop]
    rfl

theorem dummyGetID_books {d d' : Device} (h : dummyGetID fl d = some d') : d'.books = d.books := by
  unfold dummyGetID at h
  split_ifs at h
  · obtain ⟨⟨d₁, a⟩, ht, rfl⟩ := Option.map_eq_some_iff.mp h
    exact (deviceTransaction_keeps ht).books
  · obtain rfl := Option.some.inj h
    rfl

theorem setAliases_books (d : Device) (locAlias userAlias : Option CString) :
    (setAliases d locAlias userAlias).books = d.books := rfl

theorem readLabel_books {d d' : Device} (h : readLabel fl d = some d') : d'.books = d.books := by
  simp only [readLabel, Option.bind_eq_bind, Option.bind_eq_some_iff, Prod.exists] at h
  obtain ⟨d₁, h₁, d₂, a, h₂, h⟩ := h
  have hbooks : d₂.books = d.books := by
    rw [(deviceTransaction_keeps h₂).books, setAliases_books, dummyGetID_books h₁]
  split_ifs at h
  · obtain ⟨response, -, hs⟩ := Option.bind_eq_some_iff.mp h
    obtain ⟨label, -, rfl⟩ := Option.map_eq_some_iff.mp hs
    rw [setAliases_books, hbooks]
  · obtain rfl := Option.some.inj h
    exact hbooks

theorem getID_books {server : Server} {d d' : Device} (h : getID fl server d = some d') :
    d'.books = d.books := by
  unfold getID at h
  dsimp only at h
  split_ifs at h
  · obtain rfl := Option.some.inj h
    exact setAliases_books _ _ _
  · rw [readLabel_books h, setAliases_books]

/-- Behind the reply either all is as it was, as far as clients and books go, or the client could
not be written to and is released. -/
theorem afterReply_spec {l l' : Listener} {me : Client} {written : Bool} {code : Byte}
    (h : afterReply fl l me written code = some l') :
    (written = true ∧ l'.clients = l.clients ∧ l'.recvList = l.recvList ∧ l'.books = l.books) ∨
      (written = false ∧ releaseClient fl l me = some l') := by
  unfold afterReply at h
  cases written with
  | true =>
      simp only [if_true] at h
      refine .inl ⟨rfl, ?_⟩
      split_ifs at h
      · obtain ⟨d', hd', rfl⟩ := Option.map_eq_some_iff.mp h
        obtain ⟨d, hd, hget⟩ := Option.bind_eq_some_iff.mp hd'
        refine ⟨rfl, rfl, ?_⟩
        rw [Listener.books, Listener.books, hd, Option.map_some, Option.map_some, getID_books hget]
      · obtain rfl := Option.some.inj h
        exact ⟨rfl, rfl, rfl⟩
  | false =>
      simp only [Bool.false_eq_true, if_false] at h
      split_ifs at h
      exact .inr ⟨rfl, h⟩

/-! ### A readable client -/

/-- A readable client is released, or its request is handled and answered. -/
theorem handleClient_spec {l l' : Listener} {me : Client} {input : ClientInput} {o : Output}
    (h : handleClient fl l me input = some (l', o)) :
    (readDataPacket input.arrival = none ∧ releaseClient fl l me = some l' ∧ o = ⟨none, []⟩) ∨
      ∃ request s ok frame, readDataPacket input.arrival = some request ∧
        handleClientRequest fl input.resetOk (l.session me request) = some (s, ok) ∧
        (replyPacket ok s.request input.errno).frame = some frame ∧
        afterReply fl (l.behind s) s.target input.written
          (replyPacket ok s.request input.errno).code = some l' ∧
        o = ⟨(translateProtocol request.code me.version false).map (·, ok),
          if input.written then [(me.fd, frame)] else []⟩ := by
  unfold handleClient at h
  split at h
  · next hread =>
      obtain ⟨l₁, hrel, h⟩ := Option.map_eq_some_iff.mp h
      obtain ⟨rfl, rfl⟩ := Prod.mk.inj h
      exact .inl ⟨hread, hrel, rfl⟩
  · next request hread =>
      simp only [Option.bind_eq_bind, Option.bind_eq_some_iff, Prod.exists] at h
      obtain ⟨s, ok, hreq, frame, hframe, l₁, hafter, h⟩ := h
      obtain ⟨rfl, rfl⟩ := Prod.mk.inj (Option.some.inj h)
      exact .inr ⟨request, s, ok, frame, hread, hreq, hframe, hafter, rfl⟩

/-- Everybody is left behind a readable client, but for itself where it cannot be read from or
written to. -/
theorem handleClient_fds {l l' : Listener} {me : Client} {input : ClientInput} {o : Output}
    (h : handleClient fl l me input = some (l', o)) (fd : Fd) :
    fd ∈ l'.clients.map (·.fd) ↔ fd ∈ l.clients.map (·.fd) ∧
      (fd = me.fd → (readDataPacket input.arrival).isSome = true ∧ input.written = true) := by
  have hgone {l₁ : Listener} (hfds : l₁.clients.map (·.fd) = l.clients.map (·.fd)) {me' : Client}
      (hfd : me'.fd = me.fd) (hrel : releaseClient fl l₁ me' = some l') :
      fd ∈ l'.clients.map (·.fd) ↔ fd ∈ l.clients.map (·.fd) ∧ fd ≠ me.fd := by
    rw [(releaseClient_spec hrel).1, removeClient, ← hfds, hfd]
    simp only [List.mem_map, List.mem_filter, decide_eq_true_eq]
    constructor
    · rintro ⟨c, ⟨hc, hne⟩, rfl⟩
      exact ⟨⟨c, hc, rfl⟩, hne⟩
    · rintro ⟨⟨c, hc, rfl⟩, hne⟩
      exact ⟨c, ⟨hc, hne⟩, rfl⟩
  obtain ⟨hread, hrel, -⟩ | ⟨request, s, ok, frame, hread, hreq, -, hafter, -⟩ :=
    handleClient_spec h
  · rw [hgone rfl rfl hrel, hread]
    simp
  · have hfds : (l.behind s).clients.map (·.fd) = l.clients.map (·.fd) := updateClient_fds _ _
    obtain ⟨hwritten, hclients, -, -⟩ | ⟨hwritten, hrel⟩ := afterReply_spec hafter
    · rw [hclients, hfds, hread, hwritten]
      simp
    · rw [hgone hfds (handleClientRequest_fd hreq) hrel, hwritten]
      simp

/-! ### A broadcast -/

theorem forEach_sublist {action : Client → Option (Bool × List (Fd × Frame))} :
    ∀ {clients clients' : List Client} {frames : List (Fd × Frame)},
      forEach action clients = some (clients', frames) → clients'.Sublist clients
  | [], _, _, h => by
      obtain ⟨rfl, -⟩ := Prod.mk.inj (Option.some.inj h)
      exact List.Sublist.refl _
  | me :: rest, clients', frames, h => by
      simp only [forEach, Option.bind_eq_bind, Option.bind_eq_some_iff, Prod.exists] at h
      obtain ⟨stays, more, -, rest', frames', hrest, h⟩ := h
      obtain ⟨rfl, -⟩ := Prod.mk.inj (Option.some.inj h)
      have ih := forEach_sublist hrest
      cases stays with
      | true => exact ih.cons_cons me
      | false => exact ih.cons me

theorem tellPacket_sublist {packet : DataPacket} {written : Fd → Bool}
    {clients clients' : List Client} {frames : List (Fd × Frame)}
    (h : tellPacket packet written clients = some (clients', frames)) :
    clients'.Sublist clients := by
  unfold tellPacket at h
  split_ifs at h
  · simp only [tellSignal, Option.bind_eq_bind, Option.bind_eq_some_iff, Prod.exists] at h
    obtain ⟨clients₁, raw, h₁, bytes, -, words, -, clients₂, translated, h₂, h⟩ := h
    obtain ⟨rfl, -⟩ := Prod.mk.inj (Option.some.inj h)
    exact (forEach_sublist h₂).trans (forEach_sublist h₁)
  · exact forEach_sublist h
  · obtain ⟨rfl, -⟩ := Prod.mk.inj (Option.some.inj h)
    exact List.Sublist.refl _

theorem handleReader_sublist {l l' : Listener} {written : Fd → Bool} {o : Output}
    (h : handleReader l written = some (l', o)) : l'.clients.Sublist l.clients := by
  unfold handleReader at h
  cases hqueue : l.recvList with
  | nil =>
      rw [hqueue] at h
      cases h
  | cons packet rest =>
      rw [hqueue] at h
      obtain ⟨⟨clients, frames⟩, htell, h⟩ := Option.map_eq_some_iff.mp h
      obtain ⟨rfl, -⟩ := Prod.mk.inj h
      exact tellPacket_sublist htell

/-- When every client is told and stays, the list is as it was and the frames come in its order. -/
theorem forEach_stay {action : Client → Option (Bool × List (Fd × Frame))}
    {f : Client → List (Fd × Frame)} : ∀ {clients clients' : List Client}
    {frames : List (Fd × Frame)},
      (∀ me ∈ clients, ∀ stays more, action me = some (stays, more) → stays = true ∧ more = f me) →
      forEach action clients = some (clients', frames) →
        clients' = clients ∧ frames = clients.flatMap f
  | [], _, _, _, h => by
      obtain ⟨rfl, rfl⟩ := Prod.mk.inj (Option.some.inj h)
      exact ⟨rfl, rfl⟩
  | me :: rest, clients', frames, hact, h => by
      simp only [forEach, Option.bind_eq_bind, Option.bind_eq_some_iff, Prod.exists] at h
      obtain ⟨stays, more, hme, rest', frames', hrest, h⟩ := h
      obtain ⟨rfl, rfl⟩ := Prod.mk.inj (Option.some.inj h)
      obtain ⟨rfl, rfl⟩ := hact me (List.mem_cons_self ..) stays more hme
      obtain ⟨rfl, rfl⟩ := forEach_stay
        (fun c hc => hact c (List.mem_cons_of_mem _ hc)) hrest
      exact ⟨rfl, rfl⟩

/-- Is the client told of a packet in this form? -/
def hears (translated : Bool) (me : Client) : Prop :=
  me.receiving = if translated then IG_DEV_RECVON else IG_DEV_RAWRECVON

instance (translated : Bool) (me : Client) : Decidable (hears translated me) :=
  inferInstanceAs (Decidable (_ = _))

/-- The frame for a client that hears, in its own protocol. -/
def toldFrames (packet : DataPacket) (translated : Bool) (written : Fd → Bool) (me : Client) :
    List (Fd × Frame) :=
  if hears translated me ∧ written me.fd = true then
    ((translateProtocol packet.code me.version true).bind (fun code =>
      ({ packet with code := code }).frame)).toList.map (me.fd, ·)
  else []

/-- A client that does not hear stays, and so does one whose protocol has the packet's code. -/
theorem tellReceivers_spec {packet : DataPacket} {translated : Bool} {written : Fd → Bool}
    {me : Client} {stays : Bool} {frames : List (Fd × Frame)}
    (hknown : hears translated me → (translateProtocol packet.code me.version true).isSome = true)
    (h : tellReceivers packet translated written me = some (stays, frames)) :
    stays = true ∧ frames = toldFrames packet translated written me := by
  have hiff : (me.receiving = IG_DEV_RECVON ∧ translated = true ∨
      me.receiving = IG_DEV_RAWRECVON ∧ ¬translated = true) ↔ hears translated me := by
    cases translated <;> simp [hears]
  unfold tellReceivers at h
  unfold toldFrames
  by_cases hh : hears translated me
  · rw [if_pos (hiff.mpr hh)] at h
    obtain ⟨code, hcode⟩ := Option.isSome_iff_exists.mp (hknown hh)
    simp only [hcode] at h
    obtain ⟨frame, hframe, h⟩ := Option.map_eq_some_iff.mp h
    obtain ⟨rfl, rfl⟩ := Prod.mk.inj h
    refine ⟨rfl, ?_⟩
    simp only [hcode, Option.bind_some, hframe, hh, true_and]
    rfl
  · rw [if_neg (fun hc => hh (hiff.mp hc))] at h
    obtain ⟨rfl, rfl⟩ := Prod.mk.inj (Option.some.inj h)
    exact ⟨rfl, (if_neg (fun hc => hh hc.1)).symm⟩

theorem translateProtocol_recv {version : Version} (h : version ≤ IG_PROTOCOL_VERSION) :
    (translateProtocol IG_DEV_RECV version true).isSome = true := by
  obtain rfl | rfl | hlt := version_cases version
  · rfl
  · rfl
  · exact absurd hlt (BitVec.not_lt.mpr h)

/-- Without raw receivers a broadcast in the form of the device goes to nobody. -/
theorem forEach_raw {packet : DataPacket} {written : Fd → Bool} {clients clients' : List Client}
    {frames : List (Fd × Frame)} (hraw : ∀ c ∈ clients, c.receiving ≠ IG_DEV_RAWRECVON)
    (h : forEach (tellReceivers packet false written) clients = some (clients', frames)) :
    clients' = clients ∧ frames = [] := by
  obtain ⟨hclients, hframes⟩ := forEach_stay (f := toldFrames packet false written)
    (fun me hme stays more => tellReceivers_spec (fun hh => absurd hh (hraw me hme))) h
  refine ⟨hclients, ?_⟩
  rw [hframes, List.flatMap_eq_nil_iff]
  exact fun me hme => if_neg (fun hh => hraw me hme hh.1)

/-- **A broadcast** to a list without raw receivers, all of whose receivers know the protocol of
the daemon: nobody is dropped, and a signal goes to those who receive as pulses. -/
theorem tellPacket_spec {packet : DataPacket} {written : Fd → Bool} {clients clients' : List Client}
    {frames : List (Fd × Frame)} (hraw : ∀ c ∈ clients, c.receiving ≠ IG_DEV_RAWRECVON)
    (hknown : packet.code = IG_DEV_RECV →
      ∀ c ∈ clients, c.receiving ≠ 0 → c.version ≤ IG_PROTOCOL_VERSION)
    (h : tellPacket packet written clients = some (clients', frames)) :
    clients' = clients ∧
      ((packet.code ≠ IG_DEV_RECV ∧ frames = []) ∨
        (packet.code = IG_DEV_RECV ∧ ∃ bytes words,
          readBytes packet.data packet.dataLen = some bytes ∧
          iguanaDevToPulses bytes = some words ∧
          frames = clients.flatMap (toldFrames (pulsePacket packet words) true written))) := by
  unfold tellPacket at h
  split_ifs at h with hrecv hover
  · simp only [tellSignal, Option.bind_eq_bind, Option.bind_eq_some_iff, Prod.exists] at h
    obtain ⟨clients₁, raw, h₁, bytes, hbytes, words, hwords, clients₂, translated, h₂, h⟩ := h
    obtain ⟨rfl, rfl⟩ := Prod.mk.inj (Option.some.inj h)
    obtain ⟨rfl, rfl⟩ := forEach_raw hraw h₁
    have hcode : (pulsePacket packet words).code = IG_DEV_RECV := hrecv
    have hback : ∀ me ∈ clients₁, hears true me →
        (translateProtocol (pulsePacket packet words).code me.version true).isSome = true := by
      intro me hme hh
      have hmode : me.receiving = IG_DEV_RECVON := hh
      rw [hcode]
      exact translateProtocol_recv (hknown hrecv me hme (by rw [hmode]; decide))
    obtain ⟨hclients, hframes⟩ := forEach_stay
      (f := toldFrames (pulsePacket packet words) true written)
      (fun me hme stays more => tellReceivers_spec (hback me hme)) h₂
    refine ⟨hclients, .inr ⟨hrecv, bytes, words, hbytes, hwords, ?_⟩⟩
    rw [hframes, List.nil_append]
  · obtain ⟨hclients, hframes⟩ := forEach_raw hraw h
    exact ⟨hclients, .inl ⟨hrecv, hframes⟩⟩
  · obtain ⟨rfl, rfl⟩ := Prod.mk.inj (Option.some.inj h)
    exact ⟨rfl, .inl ⟨hrecv, rfl⟩⟩

/-! ### Whole runs -/

theorem handleClient_distinct {l l' : Listener} {me : Client} {input : ClientInput} {o : Output}
    (hd : Distinct l.clients) (h : handleClient fl l me input = some (l', o)) :
    Distinct l'.clients := by
  obtain ⟨-, hrel, -⟩ | ⟨request, s, ok, frame, -, -, -, hafter, -⟩ := handleClient_spec h
  · rw [(releaseClient_spec hrel).1]
    exact hd.remove _
  · have hbehind : Distinct (l.behind s).clients := hd.update _
    obtain ⟨-, hclients, -⟩ | ⟨-, hrel⟩ := afterReply_spec hafter
    · rw [hclients]
      exact hbehind
    · rw [(releaseClient_spec hrel).1]
      exact hbehind.remove _

theorem listenStep_distinct (l : Listener) (e : Event) (l' : Listener) (o : Output)
    (hd : Distinct l.clients) (h : listenStep fl l e = some (l', o)) : Distinct l'.clients := by
  cases e with
  | connected fd =>
      obtain ⟨l₁, hconn, h⟩ := Option.map_eq_some_iff.mp h
      obtain ⟨rfl, -⟩ := Prod.mk.inj h
      unfold clientConnected at hconn
      split_ifs at hconn with hfd
      obtain rfl := Option.some.inj hconn
      exact hd.connect hfd
  | readable fd input =>
      obtain ⟨me, -, hclient⟩ := Option.bind_eq_some_iff.mp h
      exact handleClient_distinct hd hclient
  | queued packet =>
      obtain ⟨rfl, -⟩ := Prod.mk.inj (Option.some.inj h)
      exact hd
  | fromReader written => exact hd.sublist ((handleReader_sublist h).map _)
  | otherThreads server =>
      obtain ⟨rfl, -⟩ := Prod.mk.inj (Option.some.inj h)
      exact hd

/-- Descriptors are distinct in every state that a worker reaches. -/
theorem run_distinct {l l' : Listener} {es : List Event} {os : List Output}
    (hstart : l.clients = []) (hrun : Transition.run (listenStep fl) l es = some (l', os)) :
    Distinct l'.clients := by
  refine Transition.run_always listenStep_distinct es l l' os ?_ hrun
  rw [hstart]
  exact List.nodup_nil

end IguanaIR
