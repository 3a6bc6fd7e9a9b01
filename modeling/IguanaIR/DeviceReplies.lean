import IguanaIR.DeviceTransaction
import IguanaIR.Transition

/-! # Replies of a device

The steps in which `deviceTransaction` gets the reply to its request, next to the reader thread
that queues the replies: `flushToDevResponsePackets`, the write of the control packet and of the
data behind it, `notified`, and the look at `idev->response`.  `queueDataPacket` is one step, and
may come between any two of them.

Calls are numbered in the order in which they start, and a reply bears the number of the request
that it answers.  The requests for the features and the halves of a split pin configuration are
calls of their own. -/

namespace IguanaIR

/-! ### Calls -/

structure Call where
  number : ℕ
  request : DataPacket
  type : PacketType
deriving DecidableEq, Repr

/-- Where a call stands. -/
inductive Stage where
  /-- About to poll the pipe. -/
  | flushing
  /-- A byte was read, and the response is about to be freed. -/
  | clearing
  /-- The control packet is next. -/
  | writing
  /-- The data is next. -/
  | streaming
  | waiting
  /-- A byte was read, and the response is about to be looked at. -/
  | taking
deriving DecidableEq, Repr

/-- Is the flush over? -/
def Stage.flushed (p : Stage) : Prop := p ≠ .flushing ∧ p ≠ .clearing

instance (p : Stage) : Decidable p.flushed := inferInstanceAs (Decidable (_ ∧ _))

/-- How a call ended, and what it stored. -/
structure CallResult where
  number : ℕ
  ok : Bool
  acked : Bool
  response : Option (ℕ × DataPacket)
deriving DecidableEq, Repr

/-- The reply to that very request is stored, if the call returned true and there is one. -/
def CallResult.Own (r : CallResult) : Prop :=
  r.ok = true → r.acked = true → ∃ packet, r.response = some (r.number, packet)

structure DeviceCalls where
  /-- The call under way. -/
  active : Option (Stage × Call)
  /-- The bytes in `responsePipe`. -/
  notices : ℕ
  /-- `idev->response`. -/
  response : Option (ℕ × DataPacket)
  /-- The requests that the device may still answer. -/
  unanswered : List ℕ
  issued : ℕ
  results : List CallResult
deriving DecidableEq, Repr

namespace DeviceCalls

def start : DeviceCalls := ⟨none, 0, none, [], 0, []⟩

/-- The call under way goes on to `stage`. -/
def moveTo (c : DeviceCalls) (stage : Stage) (call : Call) : DeviceCalls :=
  { c with active := some (stage, call) }

@[simp] theorem moveTo_response (c : DeviceCalls) (stage : Stage) (call : Call) :
    (c.moveTo stage call).response = c.response := rfl

/-- The call under way returns. -/
def finish (c : DeviceCalls) (call : Call) (ok : Bool) (response : Option (ℕ × DataPacket)) :
    DeviceCalls :=
  { c with
    active := none
    results := c.results ++ [⟨call.number, ok, call.type.ack, response⟩] }

/-- A call starts with the check of its request. -/
def call (c : DeviceCalls) (version : Version) (request : DataPacket) (nullResponse : Bool) :
    DeviceCalls :=
  let c' := { c with issued := c.issued + 1 }
  match checkIncomingProtocol (some version) request nullResponse with
  | none => { c' with results := c.results ++ [⟨c.issued, false, false, none⟩] }
  | some type => c'.moveTo .flushing ⟨c.issued, request, type⟩

/-- One round of `flushToDevResponsePackets`. -/
def poll (c : DeviceCalls) (call : Call) : DeviceCalls :=
  if c.notices = 0 then c.moveTo .writing call
  else { c with notices := c.notices - 1 }.moveTo .clearing call

/-- The device may have the control packet even if it was not written in time. -/
def control (c : DeviceCalls) (call : Call) (ok delivered : Bool) : DeviceCalls :=
  let c' := { c with
    unanswered := if (ok || delivered) && call.type.ack then c.unanswered ++ [call.number]
      else c.unanswered }
  if ok then c'.moveTo .streaming call else c'.finish call false none

/-- Behind the data: if no ack is necessary then return success now. -/
def stream (c : DeviceCalls) (call : Call) (ok : Bool) : DeviceCalls :=
  if ok && call.type.ack then c.moveTo .waiting call else c.finish call ok none

/-- The response is stored if it is acceptable, and the slot is empty. -/
def take (c : DeviceCalls) (call : Call) (n : ℕ) (pos : DataPacket) : DeviceCalls :=
  let c' := { c with response := none }
  match acceptResponse call.type call.request pos with
  | none => c'.finish call false none
  | some packet => c'.finish call true (some (n, packet))

/-- `queueDataPacket` for the reply to request `n`; the earlier ones stay without one. -/
def arrive (c : DeviceCalls) (n : ℕ) (packet : DataPacket) : DeviceCalls :=
  { c with
    notices := c.notices + 1
    response := some (n, packet)
    unanswered := (c.unanswered.dropWhile (· ≠ n)).tail }

end DeviceCalls

inductive CallMove where
  | call (version : Version) (request : DataPacket) (nullResponse : Bool)
  | poll
  | clear
  | control (ok delivered : Bool)
  | stream (ok : Bool)
  /-- `notified` reads a byte. -/
  | notified
  /-- It reads none in time, or fails. -/
  | giveUp
  | take
  | arrive (n : ℕ) (packet : DataPacket)
deriving DecidableEq, Repr

/-- One step; it is undefined where the source is, and where it cannot be taken. -/
def callStep (c : DeviceCalls) : CallMove → Option (DeviceCalls × Unit)
  | .call version request nullResponse =>
      if c.active.isSome ∨ splitsRequest version request.code then none
      else some (c.call version request nullResponse, ())
  | .poll =>
      match c.active with
      | some (.flushing, call) => some (c.poll call, ())
      | _ => none
  | .clear =>
      match c.active with
      | some (.clearing, call) => some ({ c with response := none }.moveTo .flushing call, ())
      | _ => none
  | .control ok delivered =>
      match c.active with
      | some (.writing, call) => some (c.control call ok delivered, ())
      | _ => none
  | .stream ok =>
      match c.active with
      | some (.streaming, call) => some (c.stream call ok, ())
      | _ => none
  | .notified =>
      match c.active with
      | some (.waiting, call) =>
          if c.notices = 0 then none
          else some ({ c with notices := c.notices - 1 }.moveTo .taking call, ())
      | _ => none
  | .giveUp =>
      match c.active with
      | some (.waiting, call) => some (c.finish call false none, ())
      | _ => none
  | .take =>
      match c.active, c.response with
      | some (.taking, call), some (n, pos) => some (c.take call n pos, ())
      | _, _ => none
  | .arrive n packet => if n ∈ c.unanswered then some (c.arrive n packet, ()) else none

/-- What comes in behind the flush is the reply to the request under way, or does not fit it. -/
def KeepsReplies (c : DeviceCalls) : CallMove → Prop
  | .arrive n packet => ∀ a ∈ c.active, a.1.flushed →
      n = a.2.number ∨ acceptResponse a.2.type a.2.request packet = none
  | _ => True

instance : DecidableRel KeepsReplies
  | c, .arrive n packet => inferInstanceAs (Decidable (∀ a ∈ c.active, a.1.flushed →
      n = a.2.number ∨ acceptResponse a.2.type a.2.request packet = none))
  | _, .call .. | _, .poll | _, .clear | _, .control .. | _, .stream _ | _, .notified | _, .giveUp
  | _, .take => isTrue trivial

/-! ### What a step does -/

/-- The stage in which a move is made, and the state behind it. -/
theorem callStep_spec {c c' : DeviceCalls} {m : CallMove} {u : Unit}
    (h : callStep c m = some (c', u)) :
    match m with
    | .call version request nullResponse =>
        c.active = none ∧ c' = c.call version request nullResponse
    | .poll => ∃ call, c.active = some (.flushing, call) ∧ c' = c.poll call
    | .clear => ∃ call, c.active = some (.clearing, call) ∧
        c' = { c with response := none }.moveTo .flushing call
    | .control ok delivered => ∃ call, c.active = some (.writing, call) ∧
        c' = c.control call ok delivered
    | .stream ok => ∃ call, c.active = some (.streaming, call) ∧ c' = c.stream call ok
    | .notified => ∃ call, c.active = some (.waiting, call) ∧ 0 < c.notices ∧
        c' = { c with notices := c.notices - 1 }.moveTo .taking call
    | .giveUp => ∃ call, c.active = some (.waiting, call) ∧ c' = c.finish call false none
    | .take => ∃ call n pos, c.active = some (.taking, call) ∧ c.response = some (n, pos) ∧
        c' = c.take call n pos
    | .arrive n packet => n ∈ c.unanswered ∧ c' = c.arrive n packet := by
  cases m with
  | call version request nullResponse =>
      simp only [callStep] at h
      split_ifs at h with hbusy
      obtain ⟨rfl, -⟩ := Prod.mk.inj (Option.some.inj h)
      refine ⟨?_, rfl⟩
      cases hactive : c.active with
      | none => rfl
      | some a => exact absurd (.inl (by rw [hactive]; rfl)) hbusy
  | arrive n packet =>
      simp only [callStep] at h
      split_ifs at h with hmem
      obtain ⟨rfl, -⟩ := Prod.mk.inj (Option.some.inj h)
      exact ⟨hmem, rfl⟩
  | notified =>
      simp only [callStep] at h
      split at h
      · next call hactive =>
          split_ifs at h with hnone
          obtain ⟨rfl, -⟩ := Prod.mk.inj (Option.some.inj h)
          exact ⟨call, hactive, by omega, rfl⟩
      · cases h
  | take =>
      simp only [callStep] at h
      split at h
      · next call n pos hactive hresponse =>
          obtain ⟨rfl, -⟩ := Prod.mk.inj (Option.some.inj h)
          exact ⟨call, n, pos, hactive, hresponse, rfl⟩
      · cases h
  | poll | clear | control | stream | giveUp =>
      simp only [callStep] at h
      split at h
      · next call hactive =>
          obtain ⟨rfl, -⟩ := Prod.mk.inj (Option.some.inj h)
          exact ⟨call, hactive, rfl⟩
      · cases h

/-! ### The invariant -/

/-- A response is in the slot only while its byte is in the pipe or was just read; behind the flush
it is the reply that is waited for, or does not fit. -/
structure Matched (c : DeviceCalls) : Prop where
  noticed : c.response.isSome = true → 0 < c.notices ∨
    ∃ call, c.active = some (.clearing, call) ∨ c.active = some (.taking, call)
  fits : ∀ a ∈ c.active, a.1.flushed → ∀ r ∈ c.response,
    r.1 = a.2.number ∨ acceptResponse a.2.type a.2.request r.2 = none
  own : ∀ r ∈ c.results, r.Own

namespace Matched

variable {c : DeviceCalls}

/-- A result of its own behind the others. -/
theorem own_append (hc : Matched c) {r : CallResult} (hr : r.Own) :
    ∀ r' ∈ c.results ++ [r], r'.Own := by
  intro r' hr'
  cases List.mem_append.mp hr' with
  | inl hold => exact hc.own r' hold
  | inr hnew =>
      rw [List.mem_singleton.mp hnew]
      exact hr

/-- A response that is neither being cleared nor taken has its byte in the pipe. -/
theorem pending (hc : Matched c) {stage : Stage} {call : Call}
    (hactive : c.active = some (stage, call)) (hclear : stage ≠ .clearing) (htake : stage ≠ .taking)
    (hresponse : c.response.isSome = true) : 0 < c.notices := by
  obtain hpos | ⟨call', h | h⟩ := hc.noticed hresponse
  · exact hpos
  · rw [hactive] at h
    exact absurd (Prod.mk.inj (Option.some.inj h)).1 hclear
  · rw [hactive] at h
    exact absurd (Prod.mk.inj (Option.some.inj h)).1 htake

/-- A call that ends without a response, when the slot is not being looked at. -/
theorem finish (hc : Matched c) {stage : Stage} {call : Call} {ok : Bool}
    (hactive : c.active = some (stage, call)) (hclear : stage ≠ .clearing) (htake : stage ≠ .taking)
    (hok : ok = true → call.type.ack = false) : Matched (c.finish call ok none) := by
  refine ⟨fun h => .inl (hc.pending hactive hclear htake h), nofun, hc.own_append ?_⟩
  intro h hack
  exact absurd (hok h) (by rw [show call.type.ack = true from hack]; decide)

/-- A call that goes on behind the flush. -/
theorem moveTo (hc : Matched c) {stage stage' : Stage} {call : Call}
    (hactive : c.active = some (stage, call)) (hflushed : stage.flushed)
    (htake : stage ≠ .taking) : Matched (c.moveTo stage' call) := by
  refine ⟨fun h => .inl (hc.pending hactive hflushed.2 htake h), ?_, hc.own⟩
  intro a ha _
  obtain rfl := Option.some.inj ha
  exact hc.fits (stage, call) hactive hflushed

theorem congr {c' : DeviceCalls} (hc : Matched c) (hactive : c'.active = c.active)
    (hnotices : c'.notices = c.notices) (hresponse : c'.response = c.response)
    (hresults : c'.results = c.results) : Matched c' where
  noticed := by
    rw [hactive, hnotices, hresponse]
    exact hc.noticed
  fits := by
    rw [hactive, hresponse]
    exact hc.fits
  own := by
    rw [hresults]
    exact hc.own

end Matched

theorem callStep_matched (c : DeviceCalls) (m : CallMove) (c' : DeviceCalls) (u : Unit)
    (hc : Matched c) (hguard : KeepsReplies c m) (h : callStep c m = some (c', u)) :
    Matched c' := by
  have hspec := callStep_spec h
  cases m with
  | call version request nullResponse =>
      obtain ⟨hactive, rfl⟩ := hspec
      have hpending (hresponse : c.response.isSome = true) : 0 < c.notices := by
        obtain hpos | ⟨call, h | h⟩ := hc.noticed hresponse
        · exact hpos
        · rw [hactive] at h
          cases h
        · rw [hactive] at h
          cases h
      unfold DeviceCalls.call
      cases checkIncomingProtocol (some version) request nullResponse with
      | none =>
          refine ⟨fun h => .inl (hpending h), ?_, hc.own_append nofun⟩
          intro a ha
          have hsome : c.active = some a := ha
          rw [hactive] at hsome
          cases hsome
      | some type =>
          refine ⟨fun h => .inl (hpending h), ?_, hc.own⟩
          intro a ha hflushed
          obtain rfl := Option.some.inj ha
          exact absurd rfl hflushed.1
  | poll =>
      obtain ⟨call, hactive, rfl⟩ := hspec
      unfold DeviceCalls.poll
      split_ifs with hnone
      · -- the pipe is empty, and so is the slot
        have hempty : c.response = none := by
          cases hresponse : c.response with
          | none => rfl
          | some r =>
              have hpos := hc.pending hactive nofun nofun (by rw [hresponse]; rfl)
              omega
        refine ⟨fun h => ?_, ?_, hc.own⟩
        · rw [DeviceCalls.moveTo_response, hempty] at h
          cases h
        · intro a _ _ r hr
          rw [DeviceCalls.moveTo_response, hempty] at hr
          cases hr
      · refine ⟨fun _ => .inr ⟨call, .inl rfl⟩, ?_, hc.own⟩
        intro a ha hflushed
        obtain rfl := Option.some.inj ha
        exact absurd rfl hflushed.2
  | clear =>
      obtain ⟨call, hactive, rfl⟩ := hspec
      exact ⟨nofun, fun _ _ _ => nofun, hc.own⟩
  | control ok delivered =>
      obtain ⟨call, hactive, rfl⟩ := hspec
      unfold DeviceCalls.control
      have hsame : Matched { c with
          unanswered := if (ok || delivered) && call.type.ack then c.unanswered ++ [call.number]
            else c.unanswered } := hc.congr rfl rfl rfl rfl
      cases ok with
      | true => exact hsame.moveTo hactive ⟨nofun, nofun⟩ nofun
      | false => exact hsame.finish hactive nofun nofun nofun
  | stream ok =>
      obtain ⟨call, hactive, rfl⟩ := hspec
      unfold DeviceCalls.stream
      split_ifs with hwait
      · exact hc.moveTo hactive ⟨nofun, nofun⟩ nofun
      · refine hc.finish hactive nofun nofun ?_
        rintro rfl
        simpa using hwait
  | notified =>
      obtain ⟨call, hactive, -, rfl⟩ := hspec
      refine ⟨fun _ => .inr ⟨call, .inr rfl⟩, ?_, hc.own⟩
      intro a ha _
      obtain rfl := Option.some.inj ha
      exact hc.fits (.waiting, call) hactive ⟨nofun, nofun⟩
  | giveUp =>
      obtain ⟨call, hactive, rfl⟩ := hspec
      exact hc.finish hactive nofun nofun nofun
  | take =>
      obtain ⟨call, n, pos, hactive, hresponse, rfl⟩ := hspec
      have hfits := hc.fits _ hactive ⟨nofun, nofun⟩ _ hresponse
      unfold DeviceCalls.take
      cases hpos : acceptResponse call.type call.request pos with
      | none => exact ⟨nofun, nofun, hc.own_append nofun⟩
      | some packet =>
          refine ⟨nofun, nofun, hc.own_append ?_⟩
          intro _ _
          cases hfits with
          | inl heq =>
              obtain rfl : n = call.number := heq
              exact ⟨packet, rfl⟩
          | inr hnone =>
              rw [hpos] at hnone
              cases hnone
  | arrive n packet =>
      obtain ⟨-, rfl⟩ := hspec
      refine ⟨fun _ => .inl (Nat.succ_pos _), ?_, hc.own⟩
      intro a ha hflushed r hr
      obtain rfl := Option.some.inj hr
      exact hguard a ha hflushed

/-- **Device replies are paired with their requests** in every run of calls, if no late reply that
would do for the request under way comes in between its flush and its end. -/
theorem device_replies_paired {moves : List CallMove} {c : DeviceCalls} {outputs : List Unit}
    (h : Transition.run callStep .start moves = some (c, outputs))
    (hguard : Transition.Guarded callStep KeepsReplies .start moves) :
    ∀ r ∈ c.results, r.Own := by
  refine (Transition.run_invariant callStep_matched moves _ c outputs ?_ hguard h).own
  exact ⟨nofun, nofun, nofun⟩

/-- The request for the version, to a device that is not known yet. -/
def versionCall : CallMove := .call 0 (bareRequest IG_DEV_GETVERSION) false

/-- Version 0x0309. -/
def versionReply : DataPacket := ⟨IG_DEV_GETVERSION, 2, some [0x09, 0x03]⟩

/-- A call without an answer in time. -/
def lostVersion : List CallMove :=
  [versionCall, .poll, .control true true, .stream true, .giveUp]

/-- The second try finds the late reply in its flush. -/
theorem device_replies_paired_flush : ∃ c outputs,
    Transition.run callStep .start (lostVersion ++ [.arrive 0 versionReply, versionCall, .poll,
      .clear, .poll, .control true true, .stream true, .arrive 1 versionReply, .notified, .take]) =
        some (c, outputs) ∧
    ∀ r ∈ c.results, r.Own :=
  have hguard : Transition.Guarded callStep KeepsReplies .start
      (lostVersion ++ [.arrive 0 versionReply, versionCall, .poll, .clear, .poll,
        .control true true, .stream true, .arrive 1 versionReply, .notified, .take]) := by decide
  ⟨_, _, rfl, device_replies_paired rfl hguard⟩

/-- The late reply comes behind the flush, and the second try takes it for its own. -/
theorem late_reply_taken : ∃ c outputs,
    Transition.run callStep .start (lostVersion ++ [versionCall, .poll, .control true true,
      .stream true, .arrive 0 versionReply, .notified, .take]) = some (c, outputs) ∧
    c.results = [⟨0, false, true, none⟩, ⟨1, true, true, some (0, versionReply)⟩] ∧
    ¬∀ r ∈ c.results, r.Own := by
  refine ⟨_, _, rfl, rfl, ?_⟩
  intro h
  obtain ⟨packet, hown⟩ := h _ (List.getLast_mem (List.cons_ne_nil _ _)) rfl rfl
  cases hown

/-! ### The slot is never found empty -/

/-- Behind the flush a byte in the pipe comes with a response, and so does the byte that was
read. -/
def Stocked (c : DeviceCalls) : Prop :=
  ∀ a ∈ c.active, a.1.flushed → a.1 = .taking ∨ 0 < c.notices → c.response.isSome = true

theorem callStep_stocked (c : DeviceCalls) (m : CallMove) (c' : DeviceCalls) (u : Unit)
    (hc : Stocked c) (h : callStep c m = some (c', u)) : Stocked c' := by
  have hspec := callStep_spec h
  cases m with
  | call version request nullResponse =>
      obtain ⟨hactive, rfl⟩ := hspec
      unfold DeviceCalls.call
      cases checkIncomingProtocol (some version) request nullResponse with
      | none => exact hc
      | some type =>
          intro a ha hflushed
          obtain rfl := Option.some.inj ha
          exact absurd rfl hflushed.1
  | poll =>
      obtain ⟨call, hactive, rfl⟩ := hspec
      unfold DeviceCalls.poll
      split_ifs with hnone
      · intro a ha _ hnotice
        obtain rfl := Option.some.inj ha
        cases hnotice with
        | inl htaking => cases htaking
        | inr hpos => exact absurd hnone (Nat.pos_iff_ne_zero.mp hpos)
      · intro a ha hflushed
        obtain rfl := Option.some.inj ha
        exact absurd rfl hflushed.2
  | clear =>
      obtain ⟨call, hactive, rfl⟩ := hspec
      intro a ha hflushed
      obtain rfl := Option.some.inj ha
      exact absurd rfl hflushed.1
  | control ok delivered =>
      obtain ⟨call, hactive, rfl⟩ := hspec
      cases ok with
      | true =>
          intro a ha _ hnotice
          obtain rfl := Option.some.inj ha
          exact hc _ hactive ⟨nofun, nofun⟩ (.inr (hnotice.resolve_left nofun))
      | false => exact nofun
  | stream ok =>
      obtain ⟨call, hactive, rfl⟩ := hspec
      unfold DeviceCalls.stream
      split_ifs
      · intro a ha _ hnotice
        obtain rfl := Option.some.inj ha
        exact hc _ hactive ⟨nofun, nofun⟩ (.inr (hnotice.resolve_left nofun))
      · exact nofun
  | notified =>
      obtain ⟨call, hactive, hpos, rfl⟩ := hspec
      intro a ha _ _
      obtain rfl := Option.some.inj ha
      exact hc _ hactive ⟨nofun, nofun⟩ (.inr hpos)
  | giveUp =>
      obtain ⟨call, hactive, rfl⟩ := hspec
      exact nofun
  | take =>
      obtain ⟨call, n, pos, hactive, hresponse, rfl⟩ := hspec
      unfold DeviceCalls.take
      cases acceptResponse call.type call.request pos with
      | none => exact nofun
      | some packet => exact nofun
  | arrive n packet =>
      obtain ⟨-, rfl⟩ := hspec
      exact fun _ _ _ _ => rfl

/-- **A call that read its byte finds a response** in every run, so the pointer that it looks
through is not `NULL`. -/
theorem taking_finds_response {moves : List CallMove} {c : DeviceCalls} {outputs : List Unit}
    {call : Call} (h : Transition.run callStep .start moves = some (c, outputs))
    (hactive : c.active = some (.taking, call)) : ∃ c' u, callStep c .take = some (c', u) := by
  have hstocked : Stocked c :=
    Transition.run_always callStep_stocked moves .start c outputs (fun _ ha => by cases ha) h
  obtain ⟨⟨n, pos⟩, hresponse⟩ := Option.isSome_iff_exists.mp
    (hstocked _ hactive ⟨nofun, nofun⟩ (.inl rfl))
  refine ⟨c.take call n pos, (), ?_⟩
  simp only [callStep, hactive, hresponse]

end IguanaIR
