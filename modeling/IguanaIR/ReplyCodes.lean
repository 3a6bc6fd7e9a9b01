import IguanaIR.Clients
import IguanaIR.Success

/-! # The code of a reply

The code that a reply carries against the code of its request.  The request is changed in place
on the way down, and two of the changes are not undone: a request for raw signals goes on as
`IG_DEV_RECVON`, and one for the pin configuration of an old device as that of a half.  A client
sees the other code when such a request succeeds. -/

namespace IguanaIR

variable {fl : ℚ → ℚ}

/-! ### The requests that come back under another code -/

/-- A request with this code that comes back with another one: raw receiving that is on already
or that the device answers, and the pin configuration that an old device answers. -/
def Renames (fl : ℚ → ℚ) (s : Session) (d : Device) (code : Byte) : Prop :=
  (code = IG_DEV_RAWRECVON ∧ recvOnSucceeds fl s d) ∨
    (splitsRequest d.idev.version code ∧ answers fl d (s.setCode code).request)

/-- A request that is accepted and comes back under another code. -/
def Renamed (fl : ℚ → ℚ) (s : Session) : Prop :=
  ∃ code d, acceptedCode s = some code ∧ s.device = some d ∧ Renames fl s d code

/-- The codes that are renamed when the request succeeds. -/
def renamable (version : Version) (code : Byte) : Prop :=
  code = IG_DEV_RAWRECVON ∨ splitsRequest version code

/-- Only the current protocol has the codes that are renamed. -/
theorem translateProtocol_renamed {code code' : Byte} {version : Version}
    (hcode : code' = IG_DEV_RAWRECVON ∨ code' = IG_DEV_SETPINCONFIG ∨ code' = IG_DEV_GETPINCONFIG)
    (h : translateProtocol code version false = some code') :
    version = IG_PROTOCOL_VERSION ∧ code = code' := by
  have hexch : code ≠ IG_EXCH_VERSIONS := by
    rintro rfl
    rw [translateProtocol_exch] at h
    rw [← Option.some.inj h] at hcode
    exact absurd hcode (by decide)
  obtain rfl | rfl | hlt := version_cases version
  · rw [translateProtocol_current] at h
    exact ⟨rfl, Option.some.inj h⟩
  · have hmap : ∀ p ∈ codeMap0, ¬(p.1 = IG_DEV_RAWRECVON ∨ p.1 = IG_DEV_SETPINCONFIG ∨
        p.1 = IG_DEV_GETPINCONFIG) := List.all_iff_forall_prop.mp (by decide)
    have hold : ¬((0 : Version) = IG_PROTOCOL_VERSION ∨ code = IG_EXCH_VERSIONS) :=
      not_or_intro (by decide) hexch
    unfold translateProtocol at h
    rw [if_neg hold, if_neg (by decide), if_neg Bool.false_ne_true] at h
    obtain ⟨p, hp, rfl⟩ := Option.map_eq_some_iff.mp h
    exact absurd hcode (hmap p (List.mem_of_find?_eq_some hp))
  · rw [translateProtocol_unknown hlt code false hexch] at h
    cases h

/-- A request that can be renamed is renamed when it succeeds. -/
theorem completes_renames {resetOk done : Bool} {s : Session} {d : Device} {code : Byte}
    (hcode : renamable d.idev.version code) (hd : s.device = some d)
    (h : Completes fl resetOk (s.setCode code) done) : done = true ↔ Renames fl s d code := by
  unfold Renames
  obtain rfl | hsplit := hcode
  · have hnot : ¬splitsRequest d.idev.version IG_DEV_RAWRECVON := fun hs => absurd hs.2 (by decide)
    rw [completes_recvOn (.inr rfl) hd h]
    simp only [hnot, true_and, false_and, or_false]
  · have hraw : code ≠ IG_DEV_RAWRECVON := by
      rintro rfl
      exact absurd hsplit.2 (by decide)
    rw [completes_split hsplit hd h]
    simp only [hraw, hsplit, true_and, false_and, false_or]

/-! ### The reply -/

/-- The code of a request that cannot be renamed is the one it ends with. -/
theorem finalCode_of_not_renamable {device : Option Device} {code : Byte}
    (hdevice : code = IG_DEV_RAWRECVON → ∃ d, device = some d)
    (h : ∀ d, device = some d → ¬renamable d.idev.version code) :
    finalCode (device.map (·.idev.version)) code = code := by
  have hraw : code ≠ IG_DEV_RAWRECVON := fun hc => by
    obtain ⟨d, hd⟩ := hdevice hc
    exact h d hd (.inl hc)
  rw [finalCode, switchedCode, if_neg hraw]
  cases device with
  | none => rfl
  | some d => exact if_neg (fun hs => h d rfl (.inr hs))

/-- A code that can be renamed is, by a success, and never to `IG_DEV_ERROR`. -/
theorem finalCode_of_renamable {version : Version} {code : Byte} (h : renamable version code) :
    finalCode (some version) code ≠ code ∧ finalCode (some version) code ≠ IG_DEV_ERROR := by
  obtain rfl | hsplit := h
  · have hnot : ¬splitsRequest version IG_DEV_RECVON := fun hs => absurd hs.2 (by decide)
    rw [finalCode, switchedCode, if_pos rfl, forwardedCode, if_neg hnot]
    decide
  · have hraw : code ≠ IG_DEV_RAWRECVON := by
      rintro rfl
      exact absurd hsplit.2 (by decide)
    rw [finalCode, switchedCode, if_neg hraw, forwardedCode, if_pos hsplit]
    obtain ⟨-, rfl | rfl⟩ := hsplit <;> decide

/-- The reply to a request that cannot be renamed. -/
theorem accepted_code {s s' : Session} {done : Bool} {code : Byte}
    (hcode : acceptedCode s = some code) (hacc : Accepted (s.setCode code) s' done true)
    (hsame : finalCode (s.device.map (·.idev.version)) code = code) :
    s'.request.code = s.request.code := by
  obtain ⟨htranslate, -⟩ := acceptedCode_some hcode
  have hback : translateProtocol (finalCode (s.device.map (·.idev.version)) code)
    s'.target.version true = some s'.request.code := hacc.code rfl
  have hforth := translateProtocol_inverse htranslate
  rw [hsame] at hback
  by_cases hexch : code = IG_EXCH_VERSIONS
  · rw [hexch, translateProtocol_exch] at hback hforth
    rw [← Option.some.inj hback, ← Option.some.inj hforth]
  · have hv : s'.target.version = s.target.version := hacc.version hexch
    rw [hv] at hback
    exact Option.some.inj (hback.symm.trans hforth)

/-- The reply to a request that can be renamed, which succeeds when it is completed. -/
theorem accepted_renamed {s s' : Session} {d : Device} {done ok : Bool} {code : Byte}
    (hcode : acceptedCode s = some code) (hren : renamable d.idev.version code)
    (hd : s.device = some d) (hacc : Accepted (s.setCode code) s' done ok) :
    (ok = true ↔ done = true) ∧ (ok = true →
      ¬(s'.request.code = s.request.code ∨ s'.request.code = IG_DEV_ERROR)) := by
  obtain ⟨hversion, hsent⟩ := translateProtocol_renamed (hren.imp_right (fun hs => hs.2))
    (acceptedCode_some hcode).1
  have hexch : code ≠ IG_EXCH_VERSIONS := by
    obtain rfl | ⟨-, rfl | rfl⟩ := hren <;> decide
  have hv : s'.target.version = IG_PROTOCOL_VERSION := (hacc.version hexch).trans hversion
  refine ⟨hacc.ok_iff (by rw [hv, translateProtocol_current]; rfl), fun hok => ?_⟩
  have hback : translateProtocol (finalCode (s.device.map (·.idev.version)) code)
    s'.target.version true = some s'.request.code := hacc.code hok
  rw [hv, translateProtocol_current, hd, Option.map_some] at hback
  obtain ⟨hne, herr⟩ := finalCode_of_renamable hren
  rw [← Option.some.inj hback, hsent]
  exact not_or_intro hne herr

/-- The code of the reply to a client's request. -/
theorem replyPacket_code_iff (errno : ℕ) {resetOk ok : Bool} {s s' : Session}
    (h : handleClientRequest fl resetOk s = some (s', ok)) :
    ((replyPacket ok s'.request errno).code = s.request.code ∨
      (replyPacket ok s'.request errno).code = IG_DEV_ERROR) ↔ ¬Renamed fl s := by
  obtain ⟨hcode, rfl, -, -⟩ | ⟨code, done, hcode, hdone, hacc⟩ := handleClientRequest_spec h
  · refine iff_of_true (.inr rfl) ?_
    rintro ⟨code, d, hsome, -⟩
    rw [hcode] at hsome
    cases hsome
  by_cases hren : ∃ d, s.device = some d ∧ renamable d.idev.version code
  · obtain ⟨d, hd, hren⟩ := hren
    have hiff : Renamed fl s ↔ Renames fl s d code := by
      refine ⟨fun ⟨code', d', hcode', hd', hr⟩ => ?_, fun hr => ⟨code, d, hcode, hd, hr⟩⟩
      obtain rfl := Option.some.inj (hcode.symm.trans hcode')
      obtain rfl := Option.some.inj (hd.symm.trans hd')
      exact hr
    obtain ⟨hok, hne⟩ := accepted_renamed hcode hren hd hacc
    rw [hiff, ← completes_renames hren hd hdone, ← hok]
    cases ok with
    | false => exact iff_of_true (.inr rfl) Bool.false_ne_true
    | true => exact iff_of_false (hne rfl) (not_not.mpr rfl)
  · have hnot : ∀ d, s.device = some d → ¬renamable d.idev.version code :=
      fun d hd hr => hren ⟨d, hd, hr⟩
    have hdevice : code = IG_DEV_RAWRECVON → ∃ d, s.device = some d := by
      rintro rfl
      exact completes_device (s := s.setCode IG_DEV_RAWRECVON) rfl hdone
    have hfinal := finalCode_of_not_renamable hdevice hnot
    refine iff_of_true ?_ ?_
    · cases ok with
      | false => exact .inr rfl
      | true => exact .inl (accepted_code hcode hacc hfinal)
    · rintro ⟨code', d, hcode', hd, hr⟩
      obtain rfl := Option.some.inj (hcode.symm.trans hcode')
      exact hnot d hd (hr.imp (·.1) (·.1))

/-- **The reply carries the code of its request** or `IG_DEV_ERROR`, unless the request is one
that comes back under another code. -/
theorem reply_code_iff {l l' : Listener} {me : Client} {input : ClientInput} {o : Output}
    {request : DataPacket} (hread : readDataPacket input.arrival = some request)
    (hwritten : input.written = true) (h : handleClient fl l me input = some (l', o)) :
    (∃ frame, o.frames = [(me.fd, frame)] ∧
        (frame.code = request.code ∨ frame.code = IG_DEV_ERROR)) ↔
      ¬Renamed fl (l.session me request) := by
  obtain ⟨hnone, -⟩ | ⟨request', s, ok, frame, hread', hreq, hframe, -, rfl⟩ := handleClient_spec h
  · rw [hread] at hnone
    cases hnone
  · obtain rfl := Option.some.inj (hread.symm.trans hread')
    rw [← replyPacket_code_iff input.errno hreq, ← DataPacket.frame_code hframe,
      if_pos hwritten]
    refine ⟨fun ⟨frame', hframes, hcode⟩ => ?_, fun hcode => ⟨frame, rfl, hcode⟩⟩
    obtain ⟨hhead, -⟩ := List.cons.inj hframes
    rw [(Prod.mk.inj hhead).2]
    exact hcode

/-- A worker with one client of the current protocol, for a device with these answers. -/
def askedWorker (version : Version) (answers : List DataPacket) : Listener where
  server := ⟨false, []⟩
  device := some (startWorker 8 eight_pos ⟨0, ascii "0", none, none⟩ (1, 2) version
    ⟨answers.map (fun packet => ⟨true, none, .reply packet, []⟩), []⟩)
  recvList := []
  clients := [⟨3, 0, IG_PROTOCOL_VERSION⟩]

/-- A device that answers a request to receive. -/
def recvOnWorker : Listener := askedWorker 0x0309 [⟨IG_DEV_RECVON, 0, some []⟩]

/-- A device that answers both halves of a request for the pin configuration. -/
def oldPinsWorker : Listener := askedWorker 3
  [⟨IG_DEV_GETCONFIG0, 4, some [1, 2, 3, 4]⟩, ⟨IG_DEV_GETCONFIG1, 4, some [5, 6, 7, 8]⟩]

/-- A request without data, whose reply is written. -/
def bareInput (code : Byte) : ClientInput := ⟨.whole code 0 [], 0, true, true⟩

theorem reply_code_recvOn : ∃ l' o, handleClient Binary64.nearest recvOnWorker
      ⟨3, 0, IG_PROTOCOL_VERSION⟩ (bareInput IG_DEV_RECVON) = some (l', o) ∧
    ((∃ frame, o.frames = [(3, frame)] ∧
        (frame.code = IG_DEV_RECVON ∨ frame.code = IG_DEV_ERROR)) ↔
      ¬Renamed Binary64.nearest (recvOnWorker.session ⟨3, 0, IG_PROTOCOL_VERSION⟩
        (bareRequest IG_DEV_RECVON))) := by
  have hread : readDataPacket (bareInput IG_DEV_RECVON).arrival =
    some (bareRequest IG_DEV_RECVON) := rfl
  obtain ⟨⟨l', o⟩, h⟩ : ∃ r, handleClient Binary64.nearest recvOnWorker
    ⟨3, 0, IG_PROTOCOL_VERSION⟩ (bareInput IG_DEV_RECVON) = some r := ⟨_, rfl⟩
  exact ⟨l', o, h, reply_code_iff hread rfl h⟩

/-- A request for raw signals is answered as one for signals, and one for the pin configuration
of an old device as one for its second half. -/
theorem reply_code_differs :
    (∃ l' o frame, handleClient Binary64.nearest recvOnWorker ⟨3, 0, IG_PROTOCOL_VERSION⟩
        (bareInput IG_DEV_RAWRECVON) = some (l', o) ∧
      o.frames = [(3, frame)] ∧
      ¬(frame.code = IG_DEV_RAWRECVON ∨ frame.code = IG_DEV_ERROR)) ∧
    ∃ l' o frame, handleClient Binary64.nearest oldPinsWorker ⟨3, 0, IG_PROTOCOL_VERSION⟩
        (bareInput IG_DEV_GETPINCONFIG) = some (l', o) ∧
      o.frames = [(3, frame)] ∧
      ¬(frame.code = IG_DEV_GETPINCONFIG ∨ frame.code = IG_DEV_ERROR) :=
  ⟨⟨_, _, _, rfl, rfl, by decide⟩, ⟨_, _, _, rfl, rfl, by decide⟩⟩

end IguanaIR
