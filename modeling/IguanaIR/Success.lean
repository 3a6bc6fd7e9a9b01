import IguanaIR.Requests

/-! # When a request succeeds

For the requests whose success the daemon keeps in mind: receiving, which a device is only asked
for when nobody receives, stopping, which it is only asked for by the last receiver, and the pin
configuration of an old device. -/

namespace IguanaIR

variable {fl : ℚ → ℚ}

/-- Does the device answer the request? -/
def answers (fl : ℚ → ℚ) (d : Device) (request : DataPacket) : Prop :=
  ∃ r ∈ deviceTransaction fl d request false, r.2.ok = true

instance (d : Device) (request : DataPacket) : Decidable (answers fl d request) :=
  inferInstanceAs (Decidable (∃ r ∈ deviceTransaction fl d request false, r.2.ok = true))

/-- The receiver is on already, or the device turns it on. -/
def recvOnSucceeds (fl : ℚ → ℚ) (s : Session) (d : Device) : Prop :=
  0 < d.idev.receiverCount ∨ answers fl d (s.setCode IG_DEV_RECVON).request

/-- The device with one receiver less, if it has any. -/
def withoutReceiver (d : Device) : Device :=
  if 0 < d.idev.receiverCount then d.setReceiverCount (d.idev.receiverCount - 1) else d

/-- There are other receivers, or the device turns the receiver off. -/
def recvOffSucceeds (fl : ℚ → ℚ) (s : Session) (d : Device) : Prop :=
  1 < d.idev.receiverCount ∨ answers fl (withoutReceiver d) (s.setCode IG_DEV_RECVOFF).request

instance (s : Session) (d : Device) : Decidable (recvOnSucceeds fl s d) :=
  inferInstanceAs (Decidable (_ ∨ _))

instance (s : Session) (d : Device) : Decidable (recvOffSucceeds fl s d) :=
  inferInstanceAs (Decidable (_ ∨ _))

/-! ### The device's answer -/

/-- A request for the device, other than a reset, succeeds when the device answers. -/
theorem forwardRequest_ok {resetOk ok : Bool} {s s' : Session} {d : Device}
    {response : Option DataPacket} (hd : s.device = some d) (hreset : s.request.code ≠ IG_DEV_RESET)
    (h : forwardRequest fl resetOk s = some (s', ok, response)) :
    ok = true ↔ answers fl d s.request := by
  unfold forwardRequest at h
  rw [hd] at h
  simp only [Option.bind_eq_bind, Option.bind_eq_some_iff, Prod.exists] at h
  obtain ⟨d', a, ht, h⟩ := h
  have hanswer : answers fl d s.request ↔ a.ok = true := by
    unfold answers
    rw [ht]
    simp
  rw [hanswer]
  split_ifs at h with hok
  · obtain ⟨-, h⟩ := Prod.mk.inj (Option.some.inj h)
    obtain ⟨rfl, -⟩ := Prod.mk.inj h
    exact iff_of_true rfl hok
  · obtain ⟨-, h⟩ := Prod.mk.inj (Option.some.inj h)
    obtain ⟨rfl, -⟩ := Prod.mk.inj h
    refine iff_of_false (fun hr => ?_) hok
    simp only [Bool.and_eq_true, beq_iff_eq] at hr
    exact hreset ((deviceTransaction_code ht).2 hr.1)

/-- A request that the `switch` takes to `s₁` succeeds there, or when the device answers. -/
theorem completes_iff {resetOk done ok₁ : Bool} {s s₁ : Session} {d₁ : Device}
    (hswitch : switchRequest fl s = some (s₁, ok₁)) (hd : s₁.device = some d₁)
    (hreset : s₁.request.code ≠ IG_DEV_RESET) (h : Completes fl resetOk s done) :
    done = true ↔ ok₁ = true ∨ answers fl d₁ s₁.request := by
  obtain ⟨s₁', ok₁', s₂, response, hswitch', h⟩ := h
  rw [hswitch] at hswitch'
  obtain ⟨rfl, rfl⟩ := Prod.mk.inj (Option.some.inj hswitch')
  unfold completeRequest at h
  split_ifs at h with hok
  · obtain ⟨-, h⟩ := Prod.mk.inj (Option.some.inj h)
    exact iff_of_true (Prod.mk.inj h).1.symm (.inl hok)
  · rw [forwardRequest_ok hd hreset h]
    exact (or_iff_right hok).symm

/-- A request that goes through the device has one. -/
theorem completes_device {resetOk done : Bool} {s : Session} (hcode : needsDevice s.request.code)
    (h : Completes fl resetOk s done) : ∃ d, s.device = some d := by
  obtain ⟨s₁, ok₁, _, _, hswitch, -⟩ := h
  obtain ⟨d, hd, -⟩ := switchRequest_device hcode hswitch
  exact ⟨d, hd⟩

/-! ### The requests -/

theorem completes_recvOn {resetOk done : Bool} {s : Session} {d : Device} {code : Byte}
    (hcode : startsReceiving code) (hd : s.device = some d)
    (h : Completes fl resetOk (s.setCode code) done) : done = true ↔ recvOnSucceeds fl s d := by
  have hswitch : switchRequest fl (s.setCode code) = some (recvOn (s.setCode code) d) := by
    have hdev : switchRequest fl (s.setCode code) =
        s.device.bind (fun d => some (recvOn (s.setCode code) d)) := by
      obtain rfl | rfl := hcode <;> rfl
    rw [hdev, hd, Option.bind_some]
  have hreset : IG_DEV_RECVON ≠ IG_DEV_RESET := by decide
  rw [completes_iff hswitch hd hreset h, decide_eq_true_eq]
  rfl

theorem completes_recvOff {resetOk done : Bool} {s : Session} {d : Device}
    (hd : s.device = some d) (h : Completes fl resetOk (s.setCode IG_DEV_RECVOFF) done) :
    done = true ↔ recvOffSucceeds fl s d := by
  have hswitch : switchRequest fl (s.setCode IG_DEV_RECVOFF) =
      some (recvOff (s.setCode IG_DEV_RECVOFF) d) := by
    have hdev : switchRequest fl (s.setCode IG_DEV_RECVOFF) =
        s.device.bind (fun d => some (recvOff (s.setCode IG_DEV_RECVOFF) d)) := rfl
    rw [hdev, hd, Option.bind_some]
  have hreset : IG_DEV_RECVOFF ≠ IG_DEV_RESET := by decide
  unfold recvOff at hswitch
  dsimp only at hswitch
  unfold recvOffSucceeds withoutReceiver
  by_cases hcount : 0 < d.idev.receiverCount
  · have hmore : 0 < d.idev.receiverCount - 1 ↔ 1 < d.idev.receiverCount := by bv_omega
    rw [if_pos hcount] at hswitch ⊢
    rw [completes_iff hswitch rfl hreset h, decide_eq_true_eq, ← hmore]
    rfl
  · have hmore : ¬1 < d.idev.receiverCount := by bv_omega
    rw [if_neg hcount] at hswitch ⊢
    rw [completes_iff hswitch hd hreset h, or_iff_right Bool.false_ne_true, or_iff_right hmore]

/-- The pin configuration is not handled in the daemon. -/
theorem completes_split {resetOk done : Bool} {s : Session} {d : Device} {code : Byte}
    (hcode : splitsRequest d.idev.version code) (hd : s.device = some d)
    (h : Completes fl resetOk (s.setCode code) done) :
    done = true ↔ answers fl d (s.setCode code).request := by
  have hswitch : switchRequest fl (s.setCode code) = some (s.setCode code, false) := by
    obtain ⟨-, rfl | rfl⟩ := hcode <;> rfl
  have hreset : code ≠ IG_DEV_RESET := by
    obtain ⟨-, rfl | rfl⟩ := hcode <;> decide
  rw [completes_iff hswitch hd hreset h, or_iff_right Bool.false_ne_true]

/-- A client whose version has the code sees the request succeed. -/
theorem Accepted.ok_iff {s s' : Session} {done ok : Bool} (h : Accepted s s' done ok)
    (hknown : (translateProtocol (finalCode (s.device.map (·.idev.version)) s.request.code)
      s'.target.version true).isSome = true) : ok = true ↔ done = true := by
  refine ⟨h.done_of_ok, fun hdone => ?_⟩
  by_contra hok
  rw [h.unknown hdone (Bool.eq_false_iff.mpr hok)] at hknown
  cases hknown

/-- A request in a code that the client's version has gets a reply in it. -/
theorem accepted_ok_iff {s s' : Session} {done ok : Bool} {code : Byte}
    (hcode : acceptedCode s = some code) (hacc : Accepted (s.setCode code) s' done ok)
    (hexch : code ≠ IG_EXCH_VERSIONS)
    (hsame : finalCode (s.device.map (·.idev.version)) code = code) : ok = true ↔ done = true := by
  obtain ⟨htranslate, -⟩ := acceptedCode_some hcode
  refine hacc.ok_iff ?_
  change (translateProtocol (finalCode (s.device.map (·.idev.version)) code) _ true).isSome = true
  have hv : s'.target.version = s.target.version := hacc.version hexch
  have hback : translateProtocol code s.target.version true = some s.request.code :=
    translateProtocol_inverse htranslate
  rw [hsame, hv, hback]
  rfl

end IguanaIR
