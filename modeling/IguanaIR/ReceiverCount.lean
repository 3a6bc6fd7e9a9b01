import IguanaIR.Clients

/-! # The count of receivers

`idev->receiverCount` against the `receiving` field of the clients on the list.  The count goes
up with every request to receive that succeeds and down with every request to stop while it is
positive, whoever sends them, whereas the field only says whether the client receives.  The two
agree over a run in which no client asks to receive twice, none asks to stop that does not
receive, and no receiver is dropped from the list by a broadcast. -/

namespace IguanaIR

variable {fl : ℚ → ℚ}

/-- How many clients are receiving. -/
def receivers (clients : List Client) : ℕ := clients.countP (·.receiving ≠ 0)

/-- What a client with this mode counts for. -/
def counts (mode : Byte) : ℕ := if mode = 0 then 0 else 1

/-- The daemon's books are right. -/
structure Counted (l : Listener) : Prop where
  distinct : Distinct l.clients
  modes : ∀ c ∈ l.clients, c.receiving = 0 ∨ c.receiving = IG_DEV_RECVON
  count : ∃ version, l.books = some (version, BitVec.ofNat 32 (receivers l.clients))

/-- The events under which the books stay right. -/
def KeepsBooks (l : Listener) : Event → Prop
  | .readable fd input =>
      ∀ me ∈ l.clients.find? (·.fd = fd), ∀ request ∈ readDataPacket input.arrival,
        ∀ code ∈ acceptedCode (l.session me request),
          (startsReceiving code → me.receiving = 0) ∧
          (code = IG_DEV_RECVOFF → me.receiving ≠ 0 ∨ receivers l.clients = 0)
  | .fromReader _ => ∀ packet ∈ l.recvList.head?, packet.code = IG_DEV_RECV →
      ∀ c ∈ l.clients, c.receiving ≠ 0 → c.version ≤ IG_PROTOCOL_VERSION
  | _ => True

instance : DecidableRel KeepsBooks
  | l, .readable fd input => inferInstanceAs (Decidable (∀ me ∈ l.clients.find? (·.fd = fd),
      ∀ request ∈ readDataPacket input.arrival, ∀ code ∈ acceptedCode (l.session me request),
        (startsReceiving code → me.receiving = 0) ∧
        (code = IG_DEV_RECVOFF → me.receiving ≠ 0 ∨ receivers l.clients = 0)))
  | l, .fromReader _ => inferInstanceAs (Decidable (∀ packet ∈ l.recvList.head?,
      packet.code = IG_DEV_RECV →
        ∀ c ∈ l.clients, c.receiving ≠ 0 → c.version ≤ IG_PROTOCOL_VERSION))
  | _, .connected _ | _, .queued _ | _, .otherThreads _ => isTrue trivial

/-! ### Counting -/

theorem receivers_append (before after : List Client) :
    receivers (before ++ after) = receivers before + receivers after := List.countP_append

theorem receivers_cons (me : Client) (clients : List Client) :
    receivers (me :: clients) = receivers clients + counts me.receiving := by
  unfold receivers counts
  rw [List.countP_cons]
  split_ifs <;> simp_all

theorem receivers_le {clients : List Client} (h : Distinct clients) :
    receivers clients ≤ 2 ^ 31 := List.countP_le_length.trans h.length_le

/-- The receivers besides one client, and with that client. -/
theorem receivers_split {clients : List Client} {me : Client} (hd : Distinct clients)
    (hme : me ∈ clients) :
    receivers clients = receivers (removeClient clients me.fd) + counts me.receiving ∧
      ∀ me' : Client, me'.fd = me.fd → receivers (updateClient clients me') =
        receivers (removeClient clients me.fd) + counts me'.receiving := by
  obtain ⟨before, after, hall, hgone, hnew⟩ := split_client hd hme
  refine ⟨?_, fun me' hfd => ?_⟩
  · rw [hgone, hall, receivers_append, receivers_append, receivers_cons]
    omega
  · rw [hgone, hnew me' hfd, receivers_append, receivers_append, receivers_cons]
    omega

/-! ### One step -/

/-- One receiver more. -/
theorem ofNat_succ (n : ℕ) : BitVec.ofNat 32 n + 1 = BitVec.ofNat 32 (n + 1) :=
  (BitVec.ofNat_add n 1).symm

/-- One receiver less. -/
theorem ofNat_pred (n : ℕ) : BitVec.ofNat 32 (n + 1) - 1 = BitVec.ofNat 32 n := by
  rw [← ofNat_succ]
  exact BitVec.add_sub_cancel _ _

theorem ofNat_pos {n : ℕ} (h : n + 1 < 2 ^ 32) : 0 < BitVec.ofNat 32 (n + 1) := by
  rw [BitVec.lt_def, BitVec.toNat_ofNat, Nat.mod_eq_of_lt h]
  exact Nat.succ_pos n

/-- A request changes the count by as much as the mode of its client, where `k` others receive. -/
theorem request_counts {resetOk ok : Bool} {s s' : Session} {version : Version} {k : ℕ}
    (hbooks : s.books = some (version, BitVec.ofNat 32 (k + counts s.target.receiving)))
    (hk : k + 1 < 2 ^ 32) (hmode : s.target.receiving = 0 ∨ s.target.receiving = IG_DEV_RECVON)
    (hguard : ∀ code, acceptedCode s = some code →
      (startsReceiving code → s.target.receiving = 0) ∧
      (code = IG_DEV_RECVOFF → s.target.receiving ≠ 0 ∨ k = 0))
    (h : handleClientRequest fl resetOk s = some (s', ok)) :
    s'.books = some (version, BitVec.ofNat 32 (k + counts s'.target.receiving)) ∧
      (s'.target.receiving = 0 ∨ s'.target.receiving = IG_DEV_RECVON) := by
  obtain ⟨-, -, htarget, hsame⟩ | ⟨code, done, hcode, -, hacc⟩ := handleClientRequest_spec h
  · rw [htarget, hsame]
    exact ⟨hbooks, hmode⟩
  · obtain ⟨hon, hoff⟩ := hguard code hcode
    have hm : s'.target.receiving = if done = true ∧ startsReceiving code then IG_DEV_RECVON
        else switchedMode code s.target.receiving := hacc.mode
    have hb : s'.books = s.books.map (fun books => recordedBooks
        (done = true ∧ startsReceiving code) (switchedBooks code books)) := hacc.books
    rw [hbooks, Option.map_some] at hb
    by_cases hstart : done = true ∧ startsReceiving code
    · -- a receiver is counted: the client was not one
      have hne : code ≠ IG_DEV_RECVOFF := by
        rcases hstart.2 with hc | hc <;> rw [hc] <;> decide
      rw [if_pos hstart] at hm
      rw [hb, hm, hon hstart.2, switchedBooks, if_neg (fun hc => hne hc.1), recordedBooks,
        if_pos hstart]
      exact ⟨congrArg some (congrArg (Prod.mk version) (ofNat_succ k)), .inr rfl⟩
    · rw [if_neg hstart] at hm
      rw [hb, hm, recordedBooks, if_neg hstart]
      by_cases hstop : code = IG_DEV_RECVOFF
      · -- one less, if the client was a receiver; else there was none
        rw [switchedMode, if_pos hstop]
        refine ⟨?_, .inl rfl⟩
        rcases hmode with h0 | h1
        · obtain hr | rfl := hoff hstop
          · exact absurd h0 hr
          · rw [h0, switchedBooks, if_neg (fun hc => absurd hc.2 (BitVec.lt_irrefl _))]
        · rw [h1, switchedBooks, if_pos ⟨hstop, ofNat_pos hk⟩]
          exact congrArg some (congrArg (Prod.mk version) (ofNat_pred k))
      · rw [switchedMode, if_neg hstop, switchedBooks, if_neg (fun hc => hstop hc.1)]
        exact ⟨rfl, hmode⟩

/-- A client that is released goes off the books. -/
theorem releaseClient_counted {l l' : Listener} {me : Client} (hl : Counted l)
    (hme : me ∈ l.clients) (h : releaseClient fl l me = some l') : Counted l' := by
  obtain ⟨hclients, -, hbooks⟩ := releaseClient_spec h
  obtain ⟨version, hcount⟩ := hl.count
  obtain ⟨hsplit, -⟩ := receivers_split hl.distinct hme
  refine ⟨?_, fun c hc => ?_, version, ?_⟩
  · rw [hclients]
    exact hl.distinct.remove _
  · rw [hclients] at hc
    exact hl.modes c (List.mem_of_mem_filter hc)
  · rw [hbooks, hclients, hcount, hsplit]
    unfold counts
    split_ifs with hr
    · rfl
    · exact congrArg some (congrArg (Prod.mk version) (ofNat_pred _))

/-- A request that keeps the books leaves them right. -/
theorem behind_counted {l : Listener} {me : Client} {request : DataPacket} {resetOk ok : Bool}
    {s : Session} (hl : Counted l) (hme : me ∈ l.clients)
    (hguard : ∀ code, acceptedCode (l.session me request) = some code →
      (startsReceiving code → me.receiving = 0) ∧
      (code = IG_DEV_RECVOFF → me.receiving ≠ 0 ∨ receivers l.clients = 0))
    (h : handleClientRequest fl resetOk (l.session me request) = some (s, ok)) :
    Counted (l.behind s) := by
  obtain ⟨version, hcount⟩ := hl.count
  obtain ⟨hsplit, hnew⟩ := receivers_split hl.distinct hme
  have hk := receivers_le (hl.distinct.remove me.fd)
  rw [hsplit] at hcount
  have hguard' : ∀ code, acceptedCode (l.session me request) = some code →
      (startsReceiving code → me.receiving = 0) ∧ (code = IG_DEV_RECVOFF →
        me.receiving ≠ 0 ∨ receivers (removeClient l.clients me.fd) = 0) := fun code hcode =>
    ⟨(hguard code hcode).1, fun hoff => ((hguard code hcode).2 hoff).imp_right (by omega)⟩
  obtain ⟨hbooks, hmode⟩ := request_counts (s := l.session me request) hcount (by omega)
    (hl.modes me hme) hguard' h
  refine ⟨hl.distinct.update _, fun c hc => ?_, version, ?_⟩
  · obtain ⟨c', hc', rfl⟩ := List.mem_map.mp hc
    split_ifs
    · exact hmode
    · exact hl.modes c' hc'
  · rw [← hnew s.target (handleClientRequest_fd h)] at hbooks
    exact hbooks

/-- The books only depend on the clients and the books of the device. -/
theorem Counted.congr {l l' : Listener} (hl : Counted l) (hclients : l'.clients = l.clients)
    (hbooks : l'.books = l.books) : Counted l' := by
  obtain ⟨version, hcount⟩ := hl.count
  exact ⟨by rw [hclients]; exact hl.distinct, by rw [hclients]; exact hl.modes, version,
    by rw [hbooks, hclients]; exact hcount⟩

theorem handleClient_counted {l l' : Listener} {me : Client} {input : ClientInput} {o : Output}
    (hl : Counted l) (hme : me ∈ l.clients)
    (hguard : ∀ request code, readDataPacket input.arrival = some request →
      acceptedCode (l.session me request) = some code →
        (startsReceiving code → me.receiving = 0) ∧
        (code = IG_DEV_RECVOFF → me.receiving ≠ 0 ∨ receivers l.clients = 0))
    (h : handleClient fl l me input = some (l', o)) : Counted l' := by
  obtain ⟨-, hrel, -⟩ | ⟨request, s, ok, frame, hread, hreq, -, hafter, -⟩ := handleClient_spec h
  · exact releaseClient_counted hl hme hrel
  · have hbehind := behind_counted hl hme (hguard request · hread) hreq
    obtain ⟨-, hclients, -, hbooks⟩ | ⟨-, hrel⟩ := afterReply_spec hafter
    · exact hbehind.congr hclients hbooks
    · have hin : s.target ∈ (l.behind s).clients := by
        obtain ⟨before, after, -, -, hnew⟩ := split_client hl.distinct hme
        have hlist := hnew s.target (handleClientRequest_fd hreq)
        unfold Listener.behind
        rw [hlist]
        exact List.mem_append_right _ (List.mem_cons_self ..)
      exact releaseClient_counted hbehind hin hrel

theorem clientConnected_counted {l l' : Listener} {fd : Fd} (hl : Counted l)
    (h : clientConnected l fd = some l') : Counted l' := by
  unfold clientConnected at h
  split_ifs at h with hfd
  obtain rfl := Option.some.inj h
  obtain ⟨version, hcount⟩ := hl.count
  have hsame : receivers (l.clients ++ [⟨fd, 0, 0⟩]) = receivers l.clients := receivers_append _ _
  refine ⟨hl.distinct.connect hfd, fun c hc => ?_, version, ?_⟩
  · obtain hc | hc := List.mem_append.mp hc
    · exact hl.modes c hc
    · exact .inl (by rw [List.mem_singleton.mp hc])
  · rw [hsame]
    exact hcount

/-- Every event that keeps the books leaves them right. -/
theorem listenStep_counted (l : Listener) (e : Event) (l' : Listener) (o : Output)
    (hl : Counted l) (hguard : KeepsBooks l e) (h : listenStep fl l e = some (l', o)) :
    Counted l' := by
  cases e with
  | connected fd =>
      obtain ⟨l₁, hconn, h⟩ := Option.map_eq_some_iff.mp h
      obtain ⟨rfl, -⟩ := Prod.mk.inj h
      exact clientConnected_counted hl hconn
  | readable fd input =>
      obtain ⟨me, hfind, hclient⟩ := Option.bind_eq_some_iff.mp h
      exact handleClient_counted hl (find_client hfind).1
        (fun request code hread => hguard me hfind request hread code) hclient
  | queued packet =>
      obtain ⟨rfl, -⟩ := Prod.mk.inj (Option.some.inj h)
      exact hl.congr rfl rfl
  | fromReader written =>
      change handleReader l written = some (l', o) at h
      unfold handleReader at h
      split at h
      · cases h
      · next packet rest hqueue =>
          obtain ⟨⟨clients, frames⟩, htell, h⟩ := Option.map_eq_some_iff.mp h
          obtain ⟨rfl, -⟩ := Prod.mk.inj h
          have hraw : ∀ c ∈ l.clients, c.receiving ≠ IG_DEV_RAWRECVON := fun c hc => by
            rcases hl.modes c hc with hm | hm <;> rw [hm] <;> decide
          obtain ⟨rfl, -⟩ := tellPacket_spec hraw (hguard packet (by rw [hqueue]; rfl)) htell
          exact hl.congr rfl rfl
  | otherThreads server =>
      obtain ⟨rfl, -⟩ := Prod.mk.inj (Option.some.inj h)
      exact hl.congr rfl rfl

/-! ### Whole runs -/

/-- A worker that has just started: no clients, and nobody receives. -/
def Started (l : Listener) : Prop :=
  l.clients = [] ∧ ∃ d, l.device = some d ∧ d.idev.receiverCount = 0

/-- **The count of receivers is right** in every run of a worker whose events keep the books. -/
theorem receiverCount_eq_receivers {l l' : Listener} {es : List Event} {os : List Output}
    (hstart : Started l) (hguard : Transition.Guarded (listenStep fl) KeepsBooks l es)
    (hrun : Transition.run (listenStep fl) l es = some (l', os)) :
    ∃ d, l'.device = some d ∧ d.idev.receiverCount.toNat = receivers l'.clients := by
  obtain ⟨hclients, d, hd, hzero⟩ := hstart
  have hcounted : Counted l := by
    refine ⟨?_, ?_, d.idev.version, ?_⟩
    · rw [hclients]
      exact List.nodup_nil
    · rw [hclients]
      exact List.forall_mem_nil _
    · rw [hclients, Listener.books, hd, Option.map_some, Device.books, hzero]
      rfl
  have hend := Transition.run_invariant listenStep_counted es l l' os hcounted hguard hrun
  obtain ⟨version, hcount⟩ := hend.count
  obtain ⟨d', hd', hbooks⟩ := Option.map_eq_some_iff.mp hcount
  have hlt := receivers_le hend.distinct
  refine ⟨d', hd', ?_⟩
  rw [(Prod.mk.inj hbooks).2, BitVec.toNat_ofNat, Nat.mod_eq_of_lt (by omega)]

/-- A worker for a device that answers one request to receive. -/
def receivingWorker : Listener where
  server := ⟨false, []⟩
  device := some (startWorker 8 eight_pos ⟨0, ascii "0", some (ascii "1-2"), none⟩ (1, 2) 0x0309
    ⟨[⟨true, none, .reply ⟨IG_DEV_RECVON, 0, some []⟩, []⟩], []⟩)
  recvList := []
  clients := []

/-- A request without data from the client on descriptor 3. -/
def bareEvent (code : Byte) : Event := .readable 3 ⟨.whole code 0 [], 0, true, true⟩

/-- A client of the current protocol that asks to receive. -/
def receivingEvents : List Event :=
  [.connected 3, .readable 3 ⟨.whole IG_EXCH_VERSIONS 2 [1, 0], 0, true, true⟩,
    bareEvent IG_DEV_RECVON]

theorem receiverCount_receiving : ∃ l' os,
    Transition.run (listenStep Binary64.nearest) receivingWorker receivingEvents = some (l', os) ∧
      ∃ d, l'.device = some d ∧ d.idev.receiverCount.toNat = receivers l'.clients :=
  have hguard : Transition.Guarded (listenStep Binary64.nearest) KeepsBooks receivingWorker
      receivingEvents := by decide
  ⟨_, _, rfl, receiverCount_eq_receivers ⟨rfl, _, rfl, rfl⟩ hguard rfl⟩

/-- A client that asks twice is counted twice. -/
theorem receiverCount_differs : ∃ l' os, Started receivingWorker ∧
    Transition.run (listenStep Binary64.nearest) receivingWorker
      (receivingEvents ++ [bareEvent IG_DEV_RECVON]) = some (l', os) ∧
    ∃ d, l'.device = some d ∧ d.idev.receiverCount.toNat = 2 ∧ receivers l'.clients = 1 :=
  ⟨_, _, ⟨rfl, _, rfl, rfl⟩, rfl, _, rfl, rfl, by decide⟩

end IguanaIR
