import IguanaIR.Clients
import IguanaIR.Success

/-! # The transactions of the clients

The transactions with the device that the events of the listener cause: one for a request at
most, and one when the last receiver is released.  `stopsReceiver` and `releaseStops` say from the
books and the request alone which of them turn the receiver of the device off. -/

namespace IguanaIR

variable (fl : ℚ → ℚ)

/-! ### What the device is asked for -/

/-- A transaction with the device: the code of its request, and its success. -/
abbrev Command := Byte × Bool

def transactionCommands (d : Device) (request : DataPacket) (nullResponse : Bool) : List Command :=
  (deviceTransaction fl d request nullResponse).toList.map (fun r => (request.code, r.2.ok))

/-- The transaction for what the daemon does not handle of a request itself. -/
def requestCommands (s : Session) : List Command :=
  match acceptedCode s with
  | none => []
  | some code =>
      match switchRequest fl (s.setCode code) with
      | some (s, false) =>
          s.device.toList.flatMap (fun d => transactionCommands fl d s.request false)
      | _ => []

/-- The last receiver that is released turns the receiver off. -/
def releaseCommands (l : Listener) (me : Client) : List Command :=
  if me.receiving ≠ 0 then
    l.device.toList.flatMap (fun d =>
      let d := d.setReceiverCount (d.idev.receiverCount - 1)
      if d.idev.receiverCount = 0 then
        transactionCommands fl d (bareRequest IG_DEV_RECVOFF) true
      else [])
  else []

/-- The transactions for a readable client, besides those that ask for features and labels. -/
def clientCommands (l : Listener) (me : Client) (input : ClientInput) : List Command :=
  match readDataPacket input.arrival with
  | none => releaseCommands fl l me
  | some request =>
      requestCommands fl (l.session me request) ++
        if input.written then []
        else (handleClientRequest fl input.resetOk (l.session me request)).toList.flatMap
          (fun r => releaseCommands fl (l.behind r.1) r.1.target)

def eventCommands (l : Listener) : Event → List Command
  | .readable fd input =>
      (l.clients.find? (·.fd = fd)).toList.flatMap (fun me => clientCommands fl l me input)
  | _ => []

variable {fl}

/-! ### The transactions of a request -/

theorem transactionCommands_code (fl : ℚ → ℚ) (d : Device) (request : DataPacket)
    (nullResponse : Bool) :
    transactionCommands fl d request nullResponse = [] ∨
      ∃ ok, transactionCommands fl d request nullResponse = [(request.code, ok)] := by
  unfold transactionCommands
  cases deviceTransaction fl d request nullResponse with
  | none => exact .inl rfl
  | some r => exact .inr ⟨r.2.ok, rfl⟩

/-- A request causes one transaction at most, with the code that the `switch` leaves. -/
theorem requestCommands_code (fl : ℚ → ℚ) (s : Session) :
    requestCommands fl s = [] ∨ ∃ code ok, acceptedCode s = some code ∧
      requestCommands fl s = [(switchedCode code, ok)] := by
  unfold requestCommands
  cases hcode : acceptedCode s with
  | none => exact .inl rfl
  | some code =>
      dsimp only
      split
      · next s₁ hswitch =>
          have hsame : s₁.request.code = switchedCode code := (switchRequest_switched hswitch).code
          cases s₁.device with
          | none => exact .inl rfl
          | some d =>
              simp only [Option.toList_some, List.flatMap_cons, List.flatMap_nil, List.append_nil]
              obtain hnil | ⟨ok, hone⟩ := transactionCommands_code fl d s₁.request false
              · exact .inl hnil
              · exact .inr ⟨code, ok, rfl, by rw [hone, hsame]⟩
      · exact .inl rfl

theorem releaseCommands_code {l : Listener} {me : Client} :
    ∀ c ∈ releaseCommands fl l me, c.1 = IG_DEV_RECVOFF := by
  intro c hc
  unfold releaseCommands at hc
  split_ifs at hc with hme
  · obtain ⟨d, -, hc⟩ := List.mem_flatMap.mp hc
    dsimp only at hc
    split_ifs at hc
    · obtain hnil | ⟨ok, hone⟩ := transactionCommands_code fl
        (d.setReceiverCount (d.idev.receiverCount - 1)) (bareRequest IG_DEV_RECVOFF) true
      · rw [hnil] at hc
        cases hc
      · rw [hone] at hc
        rw [List.mem_singleton.mp hc]
        rfl
    · cases hc
  · cases hc

/-- What the `switch` leaves to the device is one transaction. -/
theorem requestCommands_forwarded {resetOk : Bool} {s s₁ : Session} {code : Byte} {d : Device}
    {r : Session × Bool} (hcode : acceptedCode s = some code)
    (hswitch : switchRequest fl (s.setCode code) = some (s₁, false)) (hd : s₁.device = some d)
    (h : handleClientRequest fl resetOk s = some r) :
    ∃ ok, requestCommands fl s = [(s₁.request.code, ok)] ∧ (ok = true ↔ answers fl d s₁.request) := by
  obtain ⟨hcheck, -⟩ | ⟨code', done, hcode', ⟨s₁', ok₁, s₂, response, hs₁, hs₂⟩, -⟩ :=
    handleClientRequest_spec h
  · rw [hcode] at hcheck
    cases hcheck
  obtain rfl := Option.some.inj (hcode.symm.trans hcode')
  rw [hswitch] at hs₁
  obtain ⟨rfl, rfl⟩ := Prod.mk.inj (Option.some.inj hs₁)
  simp only [completeRequest, Bool.false_eq_true, if_false, forwardRequest, hd,
    Option.bind_eq_bind, Option.bind_eq_some_iff] at hs₂
  obtain ⟨⟨d', a⟩, ht, -⟩ := hs₂
  refine ⟨a.ok, ?_, ?_⟩
  · simp only [requestCommands, hcode, hswitch, hd, Option.toList_some, List.flatMap_cons,
      List.flatMap_nil, List.append_nil, transactionCommands, ht, List.map_cons, List.map_nil]
  · unfold answers
    rw [ht]
    simp

/-- What the `switch` finishes needs no transaction. -/
theorem requestCommands_handled {s s₁ : Session} {code : Byte} (hcode : acceptedCode s = some code)
    (hswitch : switchRequest fl (s.setCode code) = some (s₁, true)) : requestCommands fl s = [] := by
  simp only [requestCommands, hcode, hswitch]

/-- The device is asked to receive when the count is zero, and only then. -/
theorem requestCommands_recvOn {resetOk : Bool} {s : Session} {code : Byte} {d : Device}
    {r : Session × Bool} (hcode : acceptedCode s = some code) (hstart : startsReceiving code)
    (hd : s.device = some d) (h : handleClientRequest fl resetOk s = some r) :
    (0 < d.idev.receiverCount → requestCommands fl s = []) ∧
      (¬0 < d.idev.receiverCount → ∃ ok, requestCommands fl s = [(IG_DEV_RECVON, ok)] ∧
        (ok = true ↔ answers fl d (s.setCode IG_DEV_RECVON).request)) := by
  have hswitch : switchRequest fl (s.setCode code) = some (recvOn (s.setCode code) d) := by
    have hdev : switchRequest fl (s.setCode code) =
        s.device.bind (fun d => some (recvOn (s.setCode code) d)) := by
      obtain rfl | rfl := hstart <;> rfl
    rw [hdev, hd, Option.bind_some]
  unfold recvOn at hswitch
  constructor
  · intro hcount
    rw [decide_eq_true hcount] at hswitch
    exact requestCommands_handled hcode hswitch
  · intro hcount
    rw [decide_eq_false hcount] at hswitch
    exact requestCommands_forwarded hcode hswitch hd h

/-- Without a device there are no transactions. -/
theorem clientCommands_none {l : Listener} (hd : l.device = none) (me : Client)
    (input : ClientInput) : clientCommands fl l me input = [] := by
  have hrelease {l : Listener} (hd : l.device = none) (me : Client) :
      releaseCommands fl l me = [] := by
    rw [releaseCommands, hd]
    exact ite_self _
  have hnone (s : Session) (hs : s.books = none) : s.device = none := Option.map_eq_none_iff.mp hs
  unfold clientCommands
  cases hread : readDataPacket input.arrival with
  | none => exact hrelease hd me
  | some request =>
      have hbooks : (l.session me request).books = none := Option.map_eq_none_iff.mpr hd
      apply List.append_eq_nil_iff.mpr
      constructor
      · unfold requestCommands
        cases hcode : acceptedCode (l.session me request) with
        | none => rfl
        | some code =>
            dsimp only
            split
            · next s hswitch =>
                have hs : s.books = (l.session me request).books.map (switchedBooks code) :=
                  (switchRequest_switched hswitch).books
                rw [hbooks] at hs
                rw [hnone s hs]
                rfl
            · rfl
      · split_ifs
        · rfl
        · cases hreq : handleClientRequest fl input.resetOk (l.session me request) with
          | none => rfl
          | some r =>
              obtain ⟨-, -, -, hs⟩ | ⟨code, done, -, -, hacc⟩ := handleClientRequest_spec hreq
              · rw [hbooks] at hs
                simp [hrelease (l := l.behind r.1) (hnone r.1 hs)]
              · have hcode : ((l.session me request).setCode code).books = none := hbooks
                have hs := hacc.books
                rw [hcode] at hs
                simp [hrelease (l := l.behind r.1) (hnone r.1 hs)]

/-- The transactions for a readable client: one for its request at most, which comes with a reply
or before the release, and those of the release. -/
theorem clientCommands_split (fl : ℚ → ℚ) (l : Listener) (me : Client) (input : ClientInput) :
    ∃ request release, clientCommands fl l me input = request ++ release ∧
      (∀ c ∈ release, c.1 = IG_DEV_RECVOFF) ∧
      (request = [] ∨ ∃ packet code ok, readDataPacket input.arrival = some packet ∧
        acceptedCode (l.session me packet) = some code ∧ request = [(switchedCode code, ok)]) ∧
      ((readDataPacket input.arrival).isSome → input.written = true → release = []) := by
  unfold clientCommands
  cases hread : readDataPacket input.arrival with
  | none => exact ⟨[], releaseCommands fl l me, rfl, releaseCommands_code, .inl rfl, nofun⟩
  | some packet =>
      refine ⟨_, _, rfl, ?_, ?_, ?_⟩
      · intro c hc
        split_ifs at hc
        · cases hc
        · obtain ⟨s, -, hc⟩ := List.mem_flatMap.mp hc
          exact releaseCommands_code c hc
      · obtain hnil | ⟨code, ok, hcode, hone⟩ := requestCommands_code fl (l.session me packet)
        · exact .inl hnil
        · exact .inr ⟨packet, code, ok, rfl, hcode, hone⟩
      · intro _ hwritten
        rw [if_pos hwritten]

/-! ### What turns the receiver off -/

def turnsOff (code : Byte) : Prop := code = IG_DEV_RECVOFF ∨ code = IG_DEV_RESET

instance (code : Byte) : Decidable (turnsOff code) := inferInstanceAs (Decidable (_ ∨ _))

/-- The requests that turn the receiver off: a reset, and a request to stop while there is one
receiver at most. -/
def stopsReceiver (count : BitVec 32) (code : Byte) : Prop :=
  code = IG_DEV_RESET ∨ (code = IG_DEV_RECVOFF ∧ count ≤ 1)

instance (count : BitVec 32) (code : Byte) : Decidable (stopsReceiver count code) :=
  inferInstanceAs (Decidable (_ ∨ _))

/-- Is a client the last receiver behind its request?  There is no code where nothing was read or
the request was refused. -/
def releaseStops (count : BitVec 32) (me : Client) : Option Byte → Prop
  | none => me.receiving ≠ 0 ∧ count = 1
  | some code =>
      if startsReceiving code then count = 0
      else code ≠ IG_DEV_RECVOFF ∧ me.receiving ≠ 0 ∧ count = 1

instance (count : BitVec 32) (me : Client) : ∀ code, Decidable (releaseStops count me code)
  | none => inferInstanceAs (Decidable (_ ∧ _))
  | some code => inferInstanceAs (Decidable (if startsReceiving code then count = 0
      else code ≠ IG_DEV_RECVOFF ∧ me.receiving ≠ 0 ∧ count = 1))

/-- The code of an accepted request. -/
def clientCode (l : Listener) (me : Client) (input : ClientInput) : Option Byte :=
  (readDataPacket input.arrival).bind (fun request => acceptedCode (l.session me request))

theorem turnsOff_ne {code : Byte} (h : turnsOff code) : code ≠ IG_DEV_RECVON := by
  rcases h with h | h <;> rw [h] <;> decide

theorem stopsReceiver.turnsOff {count : BitVec 32} {code : Byte} (h : stopsReceiver count code) :
    turnsOff code := by
  obtain hreset | ⟨hoff, -⟩ := h
  · exact .inr hreset
  · exact .inl hoff

/-- A request is passed on to turn the receiver off when it is one that does. -/
theorem mem_requestCommands {resetOk : Bool} {s : Session} {d : Device} {r : Session × Bool}
    (hd : s.device = some d) (h : handleClientRequest fl resetOk s = some r) {code : Byte}
    (hoff : turnsOff code) :
    (∃ ok, (code, ok) ∈ requestCommands fl s) ↔
      acceptedCode s = some code ∧ stopsReceiver d.idev.receiverCount code := by
  have hstop {code' : Byte} (hcode' : code' = IG_DEV_RECVOFF) :
      switchRequest fl (s.setCode code') = some (recvOff (s.setCode code') d) := by
    have hdev : switchRequest fl (s.setCode code') =
        s.device.bind (fun d => some (recvOff (s.setCode code') d)) := by
      rw [hcode']
      rfl
    rw [hdev, hd, Option.bind_some]
  constructor
  · rintro ⟨ok, hmem⟩
    obtain hnil | ⟨code', ok', hcode', hone⟩ := requestCommands_code fl s
    · rw [hnil] at hmem
      cases hmem
    have hsame : code = switchedCode code' := by
      rw [hone] at hmem
      exact (Prod.mk.inj (List.mem_singleton.mp hmem)).1
    have hraw : code' ≠ IG_DEV_RAWRECVON := fun hraw =>
      turnsOff_ne hoff (hsame.trans (if_pos hraw))
    obtain rfl : code = code' := hsame.trans (if_neg hraw)
    refine ⟨hcode', ?_⟩
    obtain hrecv | hreset := hoff
    · refine .inr ⟨hrecv, ?_⟩
      by_contra hmore
      have hswitch := hstop hrecv
      have hpos : 0 < d.idev.receiverCount := by bv_omega
      have hleft : 0 < (d.setReceiverCount (d.idev.receiverCount - 1)).idev.receiverCount := by
        change 0 < d.idev.receiverCount - 1
        bv_omega
      rw [recvOff, if_pos hpos] at hswitch
      dsimp only at hswitch
      rw [decide_eq_true hleft] at hswitch
      rw [requestCommands_handled hcode' hswitch] at hmem
      cases hmem
    · exact .inl hreset
  · rintro ⟨hcode, hreset | ⟨hrecv, hlast⟩⟩
    · have hswitch : switchRequest fl (s.setCode code) = some (s.setCode code, false) := by
        rw [hreset]
        rfl
      obtain ⟨ok, hone, -⟩ := requestCommands_forwarded hcode hswitch hd h
      exact ⟨ok, by rw [hone]; exact List.mem_singleton_self _⟩
    · have hswitch := hstop hrecv
      unfold recvOff at hswitch
      dsimp only at hswitch
      split_ifs at hswitch with hpos
      · have hnone : ¬0 < (d.setReceiverCount (d.idev.receiverCount - 1)).idev.receiverCount := by
          change ¬0 < d.idev.receiverCount - 1
          bv_omega
        rw [decide_eq_false hnone] at hswitch
        obtain ⟨ok, hone, -⟩ := requestCommands_forwarded hcode hswitch rfl h
        exact ⟨ok, by rw [hone]; exact List.mem_singleton_self _⟩
      · obtain ⟨ok, hone, -⟩ := requestCommands_forwarded hcode hswitch hd h
        exact ⟨ok, by rw [hone]; exact List.mem_singleton_self _⟩

/-- The release of the last receiver turns the receiver off. -/
theorem releaseCommands_iff {l l' : Listener} {me : Client} {d : Device}
    (hd : l.device = some d) (h : releaseClient fl l me = some l') :
    releaseCommands fl l me ≠ [] ↔ me.receiving ≠ 0 ∧ d.idev.receiverCount = 1 := by
  have hlast : (d.setReceiverCount (d.idev.receiverCount - 1)).idev.receiverCount = 0 ↔
      d.idev.receiverCount = 1 := by
    change d.idev.receiverCount - 1 = 0 ↔ _
    bv_omega
  unfold releaseCommands
  unfold releaseClient at h
  split_ifs at h ⊢ with hme
  · simp only [hd, Option.toList_some, List.flatMap_cons, List.flatMap_nil, List.append_nil, hlast]
    obtain ⟨d', hd', -⟩ := Option.map_eq_some_iff.mp h
    rw [hd, Option.bind_some] at hd'
    simp only [dropReceiver, hlast] at hd'
    split_ifs at hd' ⊢ with hcount
    · obtain ⟨⟨d₁, a⟩, ht, -⟩ := Option.map_eq_some_iff.mp hd'
      rw [transactionCommands, ht]
      exact iff_of_true (List.cons_ne_nil _ _) ⟨hme, hcount⟩
    · exact iff_of_false (fun hne => hne rfl) (fun hlast => hcount hlast.2)
  · exact iff_of_false (fun hne => hne rfl) (fun hlast => hme hlast.1)

/-- Behind its request a client is the last receiver when it says so of the state before. -/
theorem releaseStops_iff {s s' : Session} {done ok : Bool} {code : Byte} {d : Device}
    (hd : s.device = some d) (hacc : Accepted (s.setCode code) s' done ok)
    (hstart : startsReceiving code → done = true) :
    (∃ d', s'.device = some d' ∧ s'.target.receiving ≠ 0 ∧ d'.idev.receiverCount = 1) ↔
      releaseStops d.idev.receiverCount s.target (some code) := by
  have hmode : s'.target.receiving = if done = true ∧ startsReceiving code then IG_DEV_RECVON
      else switchedMode code s.target.receiving := hacc.mode
  have hbooks : s'.books = s.books.map (fun books => recordedBooks
      (done = true ∧ startsReceiving code) (switchedBooks code books)) := hacc.books
  have hs : s.books = some d.books := by rw [Session.books, hd, Option.map_some]
  rw [hs, Option.map_some] at hbooks
  obtain ⟨d', hd', hcount⟩ := Option.map_eq_some_iff.mp hbooks
  have hbehind : (∃ d', s'.device = some d' ∧ s'.target.receiving ≠ 0 ∧
      d'.idev.receiverCount = 1) ↔ s'.target.receiving ≠ 0 ∧ d'.books.2 = 1 := by
    constructor
    · rintro ⟨d₁, hd₁, hlast⟩
      obtain rfl := Option.some.inj (hd'.symm.trans hd₁)
      exact hlast
    · exact fun hlast => ⟨d', hd', hlast⟩
  rw [hbehind, hcount, hmode]
  simp only [releaseStops]
  by_cases hcode : startsReceiving code
  · have hoff : code ≠ IG_DEV_RECVOFF := by
      rcases hcode with h | h <;> rw [h] <;> decide
    have hone : d.idev.receiverCount + 1 = 1 ↔ d.idev.receiverCount = 0 := by bv_omega
    rw [if_pos ⟨hstart hcode, hcode⟩, if_pos hcode, recordedBooks, if_pos ⟨hstart hcode, hcode⟩,
      switchedBooks, if_neg (fun hc => hoff hc.1), ← hone]
    exact and_iff_right (by decide)
  · rw [if_neg (fun hc => hcode hc.2), if_neg hcode, recordedBooks, if_neg (fun hc => hcode hc.2)]
    by_cases hoff : code = IG_DEV_RECVOFF
    · simp [switchedMode, hoff]
    · rw [switchedMode, if_neg hoff, switchedBooks, if_neg (fun hc => hoff hc.1)]
      exact (and_iff_right hoff).symm

theorem mem_releaseCommands {l : Listener} {me : Client} {code : Byte} :
    (∃ ok, (code, ok) ∈ releaseCommands fl l me) ↔
      code = IG_DEV_RECVOFF ∧ releaseCommands fl l me ≠ [] := by
  constructor
  · rintro ⟨ok, hmem⟩
    exact ⟨releaseCommands_code _ hmem, List.ne_nil_of_mem hmem⟩
  · rintro ⟨rfl, hne⟩
    obtain ⟨c, hmem⟩ := List.exists_mem_of_ne_nil _ hne
    rw [← releaseCommands_code c hmem]
    exact ⟨c.2, hmem⟩

/-- A request to receive, whose transaction does not fail, succeeds. -/
theorem starts_done {resetOk done : Bool} {s : Session} {r : Session × Bool} {code : Byte}
    {d : Device} (hd : s.device = some d) (hcode : acceptedCode s = some code)
    (hdone : Completes fl resetOk (s.setCode code) done)
    (hans : ∀ c ∈ requestCommands fl s, c.2 = true)
    (h : handleClientRequest fl resetOk s = some r) (hstart : startsReceiving code) :
    done = true := by
  apply (completes_recvOn hstart hd hdone).mpr
  by_cases hcount : 0 < d.idev.receiverCount
  · exact .inl hcount
  · obtain ⟨ok, hone, hok⟩ := (requestCommands_recvOn hcode hstart hd h).2 hcount
    have htrue : ok = true := by
      rw [hone] at hans
      exact hans _ (List.mem_singleton_self _)
    exact .inr (hok.mp htrue)

/-- A client is the last receiver behind its request, whether that is refused or accepted. -/
theorem behind_releaseStops {resetOk ok : Bool} {s s' : Session} {d : Device}
    (hd : s.device = some d) (hans : ∀ c ∈ requestCommands fl s, c.2 = true)
    (h : handleClientRequest fl resetOk s = some (s', ok)) :
    ∃ d', s'.device = some d' ∧ (s'.target.receiving ≠ 0 ∧ d'.idev.receiverCount = 1 ↔
      releaseStops d.idev.receiverCount s.target (acceptedCode s)) := by
  have hs : s.books = some d.books := by rw [Session.books, hd, Option.map_some]
  obtain ⟨hcode, -, htarget, hbooks⟩ | ⟨code, done, hcode, hdone, hacc⟩ := handleClientRequest_spec h
  · obtain ⟨d', hd', hcount⟩ := Option.map_eq_some_iff.mp (hbooks.trans hs)
    have hsame : d'.idev.receiverCount = d.idev.receiverCount := (Prod.mk.inj hcount).2
    refine ⟨d', hd', ?_⟩
    rw [htarget, hcode, hsame]
    rfl
  · have hstops := releaseStops_iff hd hacc (starts_done hd hcode hdone hans h)
    have hbooks : s'.books = s.books.map (fun books => recordedBooks
        (done = true ∧ startsReceiving code) (switchedBooks code books)) := hacc.books
    rw [hs, Option.map_some] at hbooks
    obtain ⟨d', hd', -⟩ := Option.map_eq_some_iff.mp hbooks
    refine ⟨d', hd', ?_⟩
    rw [hcode, ← hstops]
    constructor
    · exact fun hlast => ⟨d', hd', hlast⟩
    · rintro ⟨d₁, hd₁, hlast⟩
      obtain rfl := Option.some.inj (hd'.symm.trans hd₁)
      exact hlast

/-- **What turns the receiver off** for a readable client, where no transaction fails: its request,
or its release. -/
theorem mem_clientCommands {l l' : Listener} {me : Client} {input : ClientInput} {o : Output}
    {d : Device} (hd : l.device = some d) (hans : ∀ c ∈ clientCommands fl l me input, c.2 = true)
    (h : handleClient fl l me input = some (l', o)) {code : Byte} (hoff : turnsOff code) :
    (∃ ok, (code, ok) ∈ clientCommands fl l me input) ↔
      (clientCode l me input = some code ∧ stopsReceiver d.idev.receiverCount code) ∨
      (¬((readDataPacket input.arrival).isSome = true ∧ input.written = true) ∧
        code = IG_DEV_RECVOFF ∧
        releaseStops d.idev.receiverCount me (clientCode l me input)) := by
  obtain ⟨hread, hrel, -⟩ | ⟨request, s, ok, frame, hread, hreq, -, hafter, -⟩ := handleClient_spec h
  · simp only [clientCommands, clientCode, hread, Option.bind_none, mem_releaseCommands,
      releaseCommands_iff hd hrel, releaseStops]
    simp
  · have hrequest := mem_requestCommands (s := l.session me request) hd hreq hoff
    simp only [clientCommands, clientCode, hread, Option.bind_some, Option.isSome_some, hreq,
      Option.toList_some, List.flatMap_cons, List.flatMap_nil, List.append_nil, true_and] at hans ⊢
    obtain ⟨hwritten, -⟩ | ⟨hwritten, hrel⟩ := afterReply_spec hafter
    · simp only [hwritten, if_true, List.append_nil, hrequest, not_true_eq_false, false_and,
        or_false]
    · simp only [hwritten, Bool.false_eq_true, if_false, List.mem_append, not_false_iff,
        true_and, exists_or, hrequest, mem_releaseCommands] at hans ⊢
      obtain ⟨d', hd', hlast⟩ := behind_releaseStops (s := l.session me request) hd
        (fun c hc => hans c (.inl hc)) hreq
      apply or_congr_right
      apply and_congr_right'
      rw [releaseCommands_iff hd' hrel]
      exact hlast

end IguanaIR
