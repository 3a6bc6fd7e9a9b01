import IguanaIR.Clients
import IguanaIR.ReplyCodes
import IguanaIR.Transition
import Mathlib.Data.List.Forall2

/-! # The versions of the protocol

A client of protocol 0 has other codes for its requests and gets other codes in its frames.  Beyond
that the daemon does the same for it: two runs whose clients ask for the same, each in the version
that it has announced, go through the same states, and their clients hear the same. -/

namespace IguanaIR

variable {fl : ℚ → ℚ}

/-! ### Requests -/

/-- The session of a client that speaks another version. -/
def Session.speaks (s : Session) (v : Version) : Session :=
  { s with target := { s.target with version := v } }

/-- A request behind the checks and in front of the translation back. -/
def performRequest (fl : ℚ → ℚ) (resetOk : Bool) (s : Session) : Option (Session × Bool) := do
  let (s, ok) ← switchRequest fl s
  let (s, ok, response) ← completeRequest fl resetOk s ok
  let s ← recordSuccess s ok response
  some (s, ok)

theorem acceptedRequest_eq (resetOk : Bool) (s : Session) :
    acceptedRequest fl resetOk s =
      (performRequest fl resetOk s).map (fun r => translateBack r.1 r.2) := by
  rw [acceptedRequest, performRequest]
  cases switchRequest fl s with
  | none => rfl
  | some r =>
      cases hcomplete : completeRequest fl resetOk r.1 r.2 with
      | none => simp [hcomplete]
      | some q =>
          simp only [Option.bind_eq_bind, Option.bind_some, hcomplete]
          cases recordSuccess q.1 q.2.1 q.2.2 <;> rfl

/-- The same is done for a client that speaks version `v`. -/
def Speaks (v : Version) (r r' : Option (Session × Bool)) : Prop :=
  r' = r.map (fun r => (r.1.speaks v, r.2))

namespace Speaks

variable {v : Version} {r₁ r₁' r₂ r₂' : Option (Session × Bool)}

theorem ite {c : Prop} [Decidable c] (h₁ : Speaks v r₁ r₁') (h₂ : Speaks v r₂ r₂') :
    Speaks v (if c then r₁ else r₂) (if c then r₁' else r₂') := by
  split_ifs
  · exact h₁
  · exact h₂

theorem bind {α : Type} {f g : α → Option (Session × Bool)} (h : ∀ a, Speaks v (f a) (g a))
    (x : Option α) : Speaks v (x.bind f) (x.bind g) := by
  cases x with
  | none => rfl
  | some a => exact h a

theorem of_some (s : Session) (ok : Bool) : Speaks v (some (s, ok)) (some (s.speaks v, ok)) := rfl

end Speaks

theorem replyString_speaks (s : Session) (v : Version) : ∀ string : Option CString,
    Speaks v (some (s.replyString string, true)) (some ((s.speaks v).replyString string, true))
  | none => rfl
  | some _ => rfl

theorem deviceCases_speaks (s : Session) (d : Device) (v : Version) :
    Speaks v (deviceCases fl s d) (deviceCases fl (s.speaks v) d) := by
  have hoff : Speaks v (some (recvOff s d)) (some (recvOff (s.speaks v) d)) := by
    unfold recvOff
    dsimp only
    split_ifs <;> rfl
  refine .ite ?_ (.ite rfl (.ite hoff (.ite ?_ (.ite ?_ (.ite rfl (.ite ?_ (.ite rfl (.ite ?_ (.ite ?_
    (.ite rfl rfl))))))))))
  · rw [getFeatures, getFeatures]
    refine .bind (fun r => ?_) _
    obtain ⟨d, known⟩ := r
    cases known <;> rfl
  · exact .bind (fun r => rfl) _
  · exact .bind (fun r => .bind (fun bytes => rfl) _) _
  · exact .bind (fun bytes => rfl) _
  · exact .bind (fun codes => rfl) _
  · exact .bind (fun codes => rfl) _

theorem switchRequest_speaks {s : Session} (hcode : s.request.code ≠ IG_EXCH_VERSIONS) (v : Version) :
    Speaks v (switchRequest fl s) (switchRequest fl (s.speaks v)) := by
  refine .ite (.bind (fun d => deviceCases_speaks s d v) _) ?_
  rw [if_neg hcode, if_neg (show (s.speaks v).request.code ≠ IG_EXCH_VERSIONS from hcode)]
  refine .ite (replyString_speaks s v _) (.ite ?_ (.ite rfl (.ite rfl (.ite rfl rfl))))
  rw [ctlDevAddr, ctlDevAddr]
  refine .bind (fun bytes => .bind (fun name => .bind (fun address => ?_) _) _) _
  exact replyString_speaks s v address

theorem completeRequest_speaks (resetOk : Bool) (s : Session) (ok : Bool) (v : Version) :
    completeRequest fl resetOk (s.speaks v) ok =
      (completeRequest fl resetOk s ok).map (fun r => (r.1.speaks v, r.2)) := by
  unfold completeRequest
  split_ifs
  · rfl
  · unfold forwardRequest
    have hdevice : (s.speaks v).device = s.device := rfl
    have hrequest : (s.speaks v).request = s.request := rfl
    rw [hdevice]
    cases s.device with
    | none => rfl
    | some d =>
        simp only [hrequest]
        cases deviceTransaction fl d s.request false with
        | none => rfl
        | some r => cases hok : r.2.ok <;> simp [hok] <;> rfl

theorem recordSuccess_speaks (s : Session) (ok : Bool) (response : Option DataPacket) (v : Version) :
    recordSuccess (s.speaks v) ok response = (recordSuccess s ok response).map (·.speaks v) := by
  unfold recordSuccess
  split_ifs
  · have hcount : countReceiver (s.speaks v) = (countReceiver s).map (·.speaks v) := by
      unfold countReceiver
      have hcode : (s.speaks v).request.code = s.request.code := rfl
      have hdevice : (s.speaks v).device = s.device := rfl
      rw [hcode, hdevice]
      split_ifs
      · cases s.device <;> rfl
      · rfl
    rw [hcount]
    cases countReceiver s with
    | none => rfl
    | some s => cases response <;> rfl
  · rfl

theorem performRequest_speaks {s : Session} (hcode : s.request.code ≠ IG_EXCH_VERSIONS)
    (resetOk : Bool) (v : Version) :
    Speaks v (performRequest fl resetOk s) (performRequest fl resetOk (s.speaks v)) := by
  have hswitch := @switchRequest_speaks fl s hcode v
  rw [performRequest, performRequest, hswitch]
  cases switchRequest fl s with
  | none => rfl
  | some r =>
      simp only [Option.map_some, Option.bind_eq_bind, Option.bind_some, completeRequest_speaks]
      cases completeRequest fl resetOk r.1 r.2 with
      | none => rfl
      | some q =>
          simp only [Option.map_some, Option.bind_some, recordSuccess_speaks]
          cases recordSuccess q.1 q.2.1 q.2.2 <;> rfl

/-- The code of a request that succeeds, and the client it is for. -/
theorem performRequest_spec {resetOk : Bool} {s s' : Session} {ok : Bool}
    (h : performRequest fl resetOk s = some (s', ok)) :
    (ok = true → s'.request.code = finalCode (s.device.map (·.idev.version)) s.request.code) ∧
      s'.target.fd = s.target.fd ∧
      (s.request.code ≠ IG_EXCH_VERSIONS → s'.target.version = s.target.version) := by
  simp only [performRequest, Option.bind_eq_bind, Option.bind_eq_some_iff, Prod.exists] at h
  obtain ⟨s₁, ok₁, h₁, s₂, done, response, h₂, s₃, h₃, h₄⟩ := h
  obtain ⟨rfl, rfl⟩ := Prod.mk.inj (Option.some.inj h₄)
  have hsw := switchRequest_switched h₁
  have hfw := completeRequest_spec (switchRequest_pinConfig · h₁) h₂
  have hrec := recordSuccess_recorded h₃
  refine ⟨fun hdone => ?_, ?_, fun hne => ?_⟩
  · rw [hrec.code, hfw.code hdone, hsw.code, hsw.device_version]
    rfl
  · rw [hrec.fd, hfw.target, hsw.fd]
  · rw [hrec.version, hfw.target, hsw.version hne]

/-! ### Codes -/

/-- The versions that the daemon can translate. -/
def Known (v : Version) : Prop := v ≤ IG_PROTOCOL_VERSION

instance (v : Version) : Decidable (Known v) := inferInstanceAs (Decidable (_ ≤ _))

theorem known_cases {v : Version} (h : Known v) : v = IG_PROTOCOL_VERSION ∨ v = 0 := by
  obtain hv | hv | hv := version_cases v
  · exact .inl hv
  · exact .inr hv
  · exact absurd hv (BitVec.not_lt.mpr h)

/-- A code that a client has asked with can be told to it. -/
theorem finalCode_translates {v : Version} (hv : Known v) {c code : Byte}
    (h : translateProtocol c v false = some code) (version : Option Version) :
    ∃ c', translateProtocol (finalCode version code) v true = some c' ∧
      translateProtocol c' v false = some (finalCode version code) := by
  have hback {code' : Byte} (h' : ∃ c', translateProtocol code' v true = some c') :
      ∃ c', translateProtocol code' v true = some c' ∧ translateProtocol c' v false = some code' := by
    obtain ⟨c', hc'⟩ := h'
    exact ⟨c', hc', translateProtocol_inverse hc'⟩
  apply hback
  obtain rfl | rfl := known_cases hv
  · exact ⟨_, translateProtocol_current _ _⟩
  · have hold : (0 : Version) ≠ IG_PROTOCOL_VERSION := by decide
    have hplain : finalCode version code = code := by
      have hraw : code ≠ IG_DEV_RAWRECVON := fun hc =>
        hold (translateProtocol_renamed (.inl hc) h).1
      have hset : code ≠ IG_DEV_SETPINCONFIG := fun hc =>
        hold (translateProtocol_renamed (.inr (.inl hc)) h).1
      have hget : code ≠ IG_DEV_GETPINCONFIG := fun hc =>
        hold (translateProtocol_renamed (.inr (.inr hc)) h).1
      rw [finalCode, switchedCode, if_neg hraw, forwardedCode_of_not_pinConfig hset hget]
    rw [hplain]
    exact ⟨c, translateProtocol_inverse h⟩

/-- Only the current version has a code for `IG_DEV_SETID`, and it is that one. -/
theorem setID_iff {v : Version} (hv : Known v) {c code : Byte}
    (h : translateProtocol c v false = some code) : c = IG_DEV_SETID ↔ code = IG_DEV_SETID := by
  obtain rfl | rfl := known_cases hv
  · rw [translateProtocol_current] at h
    rw [Option.some.inj h]
  · constructor
    · rintro rfl
      have hnone : translateProtocol IG_DEV_SETID 0 false = none := by decide
      exact absurd (hnone.symm.trans h) (by simp)
    · rintro rfl
      have hnone : translateProtocol IG_DEV_SETID 0 true = none := by decide
      exact absurd (hnone.symm.trans (translateProtocol_inverse h)) (by simp)

theorem exch_iff {v : Version} {c code : Byte} (h : translateProtocol c v false = some code) :
    c = IG_EXCH_VERSIONS ↔ code = IG_EXCH_VERSIONS := by
  constructor
  · rintro rfl
    rw [translateProtocol_exch] at h
    exact (Option.some.inj h).symm
  · rintro rfl
    have hback := translateProtocol_inverse h
    rw [Bool.not_false, translateProtocol_exch] at hback
    exact (Option.some.inj hback).symm

theorem known_of_translates {v : Version} {c code : Byte} (hne : code ≠ IG_EXCH_VERSIONS)
    (h : translateProtocol c v false = some code) : Known v := by
  have hc : c ≠ IG_EXCH_VERSIONS := fun hc => hne ((exch_iff h).mp hc)
  obtain rfl | rfl | hlt := version_cases v
  · exact (by decide : Known IG_PROTOCOL_VERSION)
  · exact (by decide : Known 0)
  · rw [translateProtocol_unknown hlt c false hc] at h
    cases h

/-- A code that every known version has, and no unknown one. -/
theorem translateProtocol_common {v w : Version} (hknown : Known w ↔ Known v) {code : Byte}
    (hne : code ≠ IG_EXCH_VERSIONS) {dir : Bool}
    (hold : (translateProtocol code 0 dir).isSome = true) :
    (translateProtocol code w dir).isSome = (translateProtocol code v dir).isSome := by
  have hsome {u : Version} : (translateProtocol code u dir).isSome = true ↔ Known u := by
    obtain rfl | rfl | hlt := version_cases u
    · rw [translateProtocol_current]
      exact iff_of_true rfl (by decide)
    · exact iff_of_true hold (by decide)
    · rw [translateProtocol_unknown hlt code dir hne]
      exact iff_of_false Bool.false_ne_true (BitVec.not_le.mpr hlt)
  rw [Bool.eq_iff_iff, hsome, hsome, hknown]

/-! ### Clients that differ in their versions -/

/-- The same client, but for its version. -/
structure Client.Alike (c c' : Client) : Prop where
  fd : c'.fd = c.fd
  receiving : c'.receiving = c.receiving
  known : Known c'.version ↔ Known c.version

/-- The same session, but for the version of the client and for the request. -/
structure Session.Alike (s t : Session) : Prop where
  server : t.server = s.server
  device : t.device = s.device
  target : s.target.Alike t.target

/-- The same request in two versions, or versions announced that are both known or both not. -/
inductive SameRequest (v w : Version) : DataPacket → DataPacket → Prop where
  | same {c c' : Byte} (dataLen : ℤ) (data : Option (List Byte))
      (h : translateProtocol c' w false = translateProtocol c v false) :
      SameRequest v w ⟨c, dataLen, data⟩ ⟨c', dataLen, data⟩
  | announced {a b : Version} (dataLen : ℤ) (rest : List Byte) (h : Known b ↔ Known a) :
      SameRequest v w ⟨IG_EXCH_VERSIONS, dataLen, some (halfBytes a ++ rest)⟩
        ⟨IG_EXCH_VERSIONS, dataLen, some (halfBytes b ++ rest)⟩

namespace SameRequest

variable {v w : Version} {p q : DataPacket}

theorem code (h : SameRequest v w p q) :
    translateProtocol q.code w false = translateProtocol p.code v false := by
  cases h with
  | same dataLen data h => exact h
  | announced dataLen rest h => rw [translateProtocol_exch, translateProtocol_exch]

theorem dataLen (h : SameRequest v w p q) : q.dataLen = p.dataLen := by
  cases h <;> rfl

theorem data (h : SameRequest v w p q) (hne : p.code ≠ IG_EXCH_VERSIONS) : q.data = p.data := by
  cases h with
  | same dataLen data h => rfl
  | announced dataLen rest h => exact absurd rfl hne

end SameRequest

/-- The versions that two requests announce, and what is behind them. -/
def SameAnnounced (data data' : Option (List Byte)) : Prop :=
  data' = data ∨ ∃ (a b : Version) (rest : List Byte), (Known b ↔ Known a) ∧
    data = some (halfBytes a ++ rest) ∧ data' = some (halfBytes b ++ rest)

theorem SameRequest.announces {v w : Version} {p q : DataPacket} (h : SameRequest v w p q) :
    SameAnnounced p.data q.data := by
  cases h with
  | same dataLen data h => exact .inl rfl
  | announced dataLen rest h => exact .inr ⟨_, _, rest, h, rfl, rfl⟩

/-- The reply to a request in two versions. -/
structure SameReply (v w : Version) (p q : DataPacket) : Prop where
  code : translateProtocol q.code w false = translateProtocol p.code v false
  setID : q.code = IG_DEV_SETID ↔ p.code = IG_DEV_SETID
  frame : q.frame = p.frame.map (fun frame => { frame with code := q.code })

theorem frame_setCode (p : DataPacket) (code : Byte) : ({ p with code := code }).frame =
    p.frame.map (fun frame => { frame with code := code }) := by
  unfold DataPacket.frame
  dsimp only
  split_ifs
  · cases readBytes p.data p.dataLen <;> rfl
  · rfl

theorem translateBack_alike {s t : Session} (h : s.Alike t) (ok ok' : Bool) :
    (translateBack s ok).1.Alike (translateBack t ok').1 := by
  unfold translateBack
  cases translateProtocol s.request.code s.target.version true <;>
    cases translateProtocol t.request.code t.target.version true <;>
    exact ⟨h.server, h.device, h.target⟩

theorem translateBack_failed (s : Session) : (translateBack s false).2 = false := by
  unfold translateBack
  cases translateProtocol s.request.code s.target.version true <;> rfl

theorem SameReply.exchanged {v w : Version} {p : DataPacket} (h : p.code = IG_EXCH_VERSIONS) :
    SameReply v w p p where
  code := by rw [h, translateProtocol_exch, translateProtocol_exch]
  setID := Iff.rfl
  frame := frame_setCode p p.code

/-- Behind the translation only the version is left of the difference. -/
theorem Session.Alike.setCode_speaks {s t : Session} (h : s.Alike t) {code : Byte}
    (hlen : t.request.dataLen = s.request.dataLen) (hdata : t.request.data = s.request.data) :
    t.setCode code = (s.setCode code).speaks t.target.version := by
  have hclient : t.target = { s.target with version := t.target.version } :=
    (Client.mk.injEq ..).mpr ⟨h.target.fd, h.target.receiving, rfl⟩
  have hrequest : ({ t.request with code := code } : DataPacket) = { s.request with code := code } :=
    (DataPacket.mk.injEq ..).mpr ⟨rfl, hlen, hdata⟩
  exact (Session.mk.injEq ..).mpr ⟨h.server, h.device, hclient, hrequest⟩

theorem Session.Alike.speaks (s : Session) {w : Version} (h : Known w ↔ Known s.target.version) :
    s.Alike (s.speaks w) := ⟨rfl, rfl, rfl, rfl, h⟩

/-! ### One request -/

/-- A request that does not announce a version, in two versions. -/
theorem acceptedRequest_speaks {s s' : Session} {resetOk ok : Bool} {c c' : Byte} {w : Version}
    (hne : s.request.code ≠ IG_EXCH_VERSIONS) (hknown : Known w ↔ Known s.target.version)
    (hc : translateProtocol c s.target.version false = some s.request.code)
    (hc' : translateProtocol c' w false = some s.request.code)
    (h : acceptedRequest fl resetOk s = some (s', ok)) :
    ∃ t', acceptedRequest fl resetOk (s.speaks w) = some (t', ok) ∧ s'.Alike t' ∧
      (ok = true → SameReply s.target.version w s'.request t'.request) := by
  rw [acceptedRequest_eq] at h
  obtain ⟨⟨s₁, done⟩, hperform, hback⟩ := Option.map_eq_some_iff.mp h
  change translateBack s₁ done = (s', ok) at hback
  have hperform' : acceptedRequest fl resetOk (s.speaks w) =
      some (translateBack (s₁.speaks w) done) := by
    rw [acceptedRequest_eq, performRequest_speaks hne resetOk w, hperform]
    rfl
  obtain ⟨hfinal, -, hversion⟩ := performRequest_spec hperform
  have hv : s₁.target.version = s.target.version := hversion hne
  have halike : s₁.Alike (s₁.speaks w) := .speaks s₁ (by rw [hv, hknown])
  rw [hperform']
  cases done with
  | false =>
      have hback' := translateBack_alike halike false false
      have hok : ok = false := (congrArg Prod.snd hback).symm.trans (translateBack_failed s₁)
      rw [hback] at hback'
      exact ⟨(translateBack (s₁.speaks w) false).1,
        congrArg some (Prod.ext rfl ((translateBack_failed _).trans hok.symm)), hback',
        fun hdone => absurd (hok.symm.trans hdone) (by decide)⟩
  | true =>
      have hv₁ : Known s.target.version := known_of_translates hne hc
      obtain ⟨a, ha, ha'⟩ := finalCode_translates hv₁ hc (s.device.map (·.idev.version))
      obtain ⟨b, hb, hb'⟩ :=
        finalCode_translates (hknown.mpr hv₁) hc' (s.device.map (·.idev.version))
      rw [← hfinal rfl] at ha ha' hb hb'
      have hs : translateBack s₁ true = (s₁.setCode a, true) := by
        rw [translateBack, hv, ha]
      obtain ⟨rfl, rfl⟩ := Prod.mk.inj (hback.symm.trans hs)
      have ht : translateBack (s₁.speaks w) true = ((s₁.speaks w).setCode b, true) := by
        rw [translateBack, show (s₁.speaks w).request = s₁.request from rfl,
          show (s₁.speaks w).target.version = w from rfl, hb]
      rw [ht]
      refine ⟨(s₁.speaks w).setCode b, rfl, ⟨halike.server, halike.device, halike.target⟩,
        fun _ => ⟨hb'.trans ha'.symm, ?_, ?_⟩⟩
      · exact (setID_iff (hknown.mpr hv₁) hb').trans (setID_iff hv₁ ha').symm
      · exact frame_setCode (s₁.setCode a).request b

/-- The session of a client that has announced its version. -/
def Session.exchanged (s : Session) (version : Version) : Session :=
  ({ s with target := { s.target with version := version } }).overwrite (halfBytes IG_PROTOCOL_VERSION)

theorem exchVersions_eq (s : Session) : exchVersions s =
    (readBytes s.request.data 2).map (fun bytes =>
      (s.exchanged (bytes.getD 1 0 ++ bytes.getD 0 0), true)) := by
  unfold exchVersions
  cases readBytes s.request.data 2 <;> rfl

theorem acceptedRequest_exch {s : Session} (hcode : s.request.code = IG_EXCH_VERSIONS)
    (resetOk : Bool) :
    acceptedRequest fl resetOk s = exchVersions s := by
  have hswitch : switchRequest fl s = exchVersions s := by
    have hdevice : ¬needsDevice IG_EXCH_VERSIONS = true := by decide
    rw [switchRequest, hcode, if_neg hdevice, if_pos rfl]
  rw [acceptedRequest, hswitch, exchVersions_eq]
  cases readBytes s.request.data 2 with
  | none => rfl
  | some bytes =>
      have hrecv : IG_EXCH_VERSIONS ≠ IG_DEV_RECVON := by decide
      simp [completeRequest, recordSuccess, countReceiver, packResponse, translateBack,
        Session.exchanged, Session.overwrite, Session.setCode, hcode, hrecv]

theorem halfBytes_version (v : Version) :
    (halfBytes v).getD 1 0 ++ (halfBytes v).getD 0 0 = v := by
  change v.extractLsb' 8 8 ++ v.extractLsb' 0 8 = v
  rw [BitVec.extractLsb'_append_extractLsb'_eq_extractLsb' (show 8 = 0 + 8 from rfl)]
  exact BitVec.extractLsb'_eq_self

theorem readBytes_announced (v : Version) (rest : List Byte) :
    readBytes (some (halfBytes v ++ rest)) 2 = some (halfBytes v) :=
  readBytes_some (show 2 ≤ (halfBytes v ++ rest).length by simp [halfBytes])

/-- Versions that are announced alike are read alike, and the rest of the data is the same. -/
theorem SameAnnounced.readBytes {data data' : Option (List Byte)} (h : SameAnnounced data data')
    {bytes : List Byte} (hread : readBytes data 2 = some bytes) :
    ∃ bytes', IguanaIR.readBytes data' 2 = some bytes' ∧
      (Known (bytes'.getD 1 0 ++ bytes'.getD 0 0) ↔ Known (bytes.getD 1 0 ++ bytes.getD 0 0)) ∧
      data'.map (·.drop 2) = data.map (·.drop 2) := by
  obtain rfl | ⟨a, b, rest, hknown, rfl, rfl⟩ := h
  · exact ⟨bytes, hread, Iff.rfl, rfl⟩
  · rw [readBytes_announced] at hread
    obtain rfl := Option.some.inj hread
    refine ⟨halfBytes b, readBytes_announced b rest, ?_, rfl⟩
    rw [halfBytes_version, halfBytes_version]
    exact hknown

/-- An exchange of versions leaves clients that are alike, and tells them the same. -/
theorem exchVersions_alike {s t s' : Session} {ok : Bool} (halike : s.Alike t)
    (hcode : t.request.code = s.request.code) (hlen : t.request.dataLen = s.request.dataLen)
    (hdata : SameAnnounced s.request.data t.request.data)
    (h : exchVersions s = some (s', ok)) :
    ∃ t', exchVersions t = some (t', ok) ∧ s'.Alike t' ∧ t'.request = s'.request ∧
      s'.request.code = s.request.code := by
  rw [exchVersions_eq] at h ⊢
  obtain ⟨bytes, hread, h⟩ := Option.map_eq_some_iff.mp h
  obtain ⟨rfl, rfl⟩ := Prod.mk.inj h
  obtain ⟨bytes', hread', hknown, hrest⟩ := hdata.readBytes hread
  refine ⟨t.exchanged (bytes'.getD 1 0 ++ bytes'.getD 0 0), ?_,
    ⟨halike.server, halike.device, ⟨halike.target.fd, halike.target.receiving, hknown⟩⟩, ?_, rfl⟩
  · rw [hread', Option.map_some]
  · have hover : t.request.data.map (fun data => halfBytes IG_PROTOCOL_VERSION ++ data.drop 2) =
        s.request.data.map (fun data => halfBytes IG_PROTOCOL_VERSION ++ data.drop 2) := by
      have hmap := congrArg (Option.map (halfBytes IG_PROTOCOL_VERSION ++ ·)) hrest
      rwa [Option.map_map, Option.map_map] at hmap
    exact (DataPacket.mk.injEq ..).mpr ⟨hcode, hlen, hover⟩

/-- **One request in two versions**: the same is done for both clients, and the reply is the same. -/
theorem handleClientRequest_alike {s t s' : Session} {resetOk ok : Bool} (halike : s.Alike t)
    (hsame : SameRequest s.target.version t.target.version s.request t.request)
    (h : handleClientRequest fl resetOk s = some (s', ok)) :
    ∃ t', handleClientRequest fl resetOk t = some (t', ok) ∧ s'.Alike t' ∧
      (ok = true → SameReply s.target.version t.target.version s'.request t'.request) := by
  unfold handleClientRequest at h ⊢
  cases hc : translateProtocol s.request.code s.target.version false with
  | none =>
      simp only [hc] at h
      obtain ⟨rfl, rfl⟩ := Prod.mk.inj (Option.some.inj h)
      simp only [hsame.code.trans hc]
      exact ⟨t, rfl, halike, fun hok => absurd hok (by decide)⟩
  | some code =>
      have hc' := hsame.code.trans hc
      have hcheck : checkIncomingProtocol (t.device.map (·.idev.version)) (t.setCode code).request
          false =
          checkIncomingProtocol (s.device.map (·.idev.version)) (s.setCode code).request false := by
        unfold checkIncomingProtocol Session.setCode
        simp only [halike.device, hsame.dataLen]
      simp only [hc] at h
      simp only [hc', hcheck]
      cases hcs : checkIncomingProtocol (s.device.map (·.idev.version)) (s.setCode code).request
        false with
      | none =>
          simp only [hcs] at h
          obtain ⟨rfl, rfl⟩ := Prod.mk.inj (Option.some.inj h)
          exact ⟨t.setCode code, rfl, ⟨halike.server, halike.device, halike.target⟩,
            fun hok => absurd hok (by decide)⟩
      | some type =>
          simp only [hcs] at h
          by_cases hexch : code = IG_EXCH_VERSIONS
          · subst hexch
            rw [acceptedRequest_exch rfl] at h ⊢
            obtain ⟨t', ht', halike', hrequest, hcode⟩ := exchVersions_alike
              (s := s.setCode IG_EXCH_VERSIONS) (t := t.setCode IG_EXCH_VERSIONS)
              ⟨halike.server, halike.device, halike.target⟩ rfl hsame.dataLen hsame.announces h
            refine ⟨t', ht', halike', fun _ => ?_⟩
            rw [hrequest]
            exact .exchanged hcode
          · have hdata := hsame.data (fun hcode => hexch ((exch_iff hc).mp hcode))
            rw [halike.setCode_speaks hsame.dataLen hdata]
            exact acceptedRequest_speaks hexch halike.target.known hc hc' h

/-! ### What the clients hear -/

/-- A frame as its client understands it. -/
def heardFrame (clients : List Client) (told : Fd × Frame) : Fd × Option Frame :=
  (told.1, (clients.find? (·.fd = told.1)).bind (fun c =>
    (translateProtocol told.2.code c.version false).map (fun code => { told.2 with code := code })))

/-- What shows on the outside, as the clients understand it. -/
def heard (clients : List Client) (o : Output) : Option (Byte × Bool) × List (Fd × Option Frame) :=
  (o.request, o.frames.map (heardFrame clients))

theorem heardFrame_alike {cs ds : List Client} {c d : Client} (hc : cs.find? (·.fd = c.fd) = some c)
    (hd : ds.find? (·.fd = d.fd) = some d) (halike : c.Alike d) {frame : Frame} {code : Byte}
    (hcode : translateProtocol code d.version false =
      translateProtocol frame.code c.version false) :
    heardFrame ds (d.fd, { frame with code := code }) = heardFrame cs (c.fd, frame) := by
  rw [halike.fd] at hd ⊢
  unfold heardFrame
  simp only [hc, hd, Option.bind_some, hcode]

theorem translateProtocol_error_eq (v : Version) :
    translateProtocol IG_DEV_ERROR v false = if Known v then some IG_DEV_ERROR else none := by
  obtain rfl | rfl | hlt := version_cases v
  · rfl
  · rfl
  · rw [translateProtocol_unknown hlt _ _ (by decide)]
    exact (if_neg (BitVec.not_le.mpr hlt)).symm

/-- The reply is the same, whether the request succeeds or not. -/
theorem replyPacket_same {v w : Version} {ok : Bool} {p q : DataPacket}
    (hknown : Known w ↔ Known v) (h : ok = true → SameReply v w p q) (errno : ℕ) :
    SameReply v w (replyPacket ok p errno) (replyPacket ok q errno) := by
  cases ok with
  | true => exact h rfl
  | false =>
      refine ⟨?_, Iff.rfl, ?_⟩
      · change translateProtocol IG_DEV_ERROR w false = translateProtocol IG_DEV_ERROR v false
        simp only [translateProtocol_error_eq, hknown]
      · have hlen : ¬0 < -(errno : ℤ) := by omega
        unfold replyPacket DataPacket.frame
        simp only [Bool.false_eq_true, if_false, if_neg hlen, Option.map_some]

/-! ### Lists of clients -/

/-- Two listeners whose clients differ in their versions. -/
structure Listener.Alike (l m : Listener) : Prop where
  server : m.server = l.server
  device : m.device = l.device
  recvList : m.recvList = l.recvList
  clients : List.Forall₂ Client.Alike l.clients m.clients

theorem find_alike {cs ds : List Client} (h : List.Forall₂ Client.Alike cs ds) {fd : Fd} {c : Client}
    (hc : cs.find? (·.fd = fd) = some c) :
    ∃ d, ds.find? (·.fd = fd) = some d ∧ c.Alike d := by
  induction h with
  | nil => cases hc
  | @cons c' d' cs ds hhead hrest ih =>
      rw [List.find?_cons] at hc ⊢
      rw [hhead.fd]
      cases hfd : decide (c'.fd = fd) with
      | true =>
          rw [hfd] at hc
          obtain rfl := Option.some.inj hc
          exact ⟨d', rfl, hhead⟩
      | false =>
          rw [hfd] at hc
          exact ih hc

theorem fds_alike {cs ds : List Client} (h : List.Forall₂ Client.Alike cs ds) :
    ds.map (·.fd) = cs.map (·.fd) := by
  induction h with
  | nil => rfl
  | cons hhead hrest ih => rw [List.map_cons, List.map_cons, hhead.fd, ih]

theorem updateClient_alike {cs ds : List Client} (h : List.Forall₂ Client.Alike cs ds)
    {me you : Client} (hme : me.Alike you) :
    List.Forall₂ Client.Alike (updateClient cs me) (updateClient ds you) := by
  refine List.rel_map (fun c d hcd => ?_) h
  rw [hcd.fd, hme.fd]
  split_ifs
  · exact hme
  · exact hcd

theorem removeClient_alike {cs ds : List Client} (h : List.Forall₂ Client.Alike cs ds) (fd : Fd) :
    List.Forall₂ Client.Alike (removeClient cs fd) (removeClient ds fd) := by
  refine List.rel_filter (fun c d hcd => ?_) h
  dsimp only
  rw [hcd.fd]

theorem Distinct.find {cs : List Client} (hd : Distinct cs) {c : Client} (hc : c ∈ cs) :
    cs.find? (·.fd = c.fd) = some c := by
  induction cs with
  | nil => cases hc
  | cons c' cs ih =>
      have hd' := List.nodup_cons.mp hd
      rw [List.find?_cons]
      cases hfd : decide (c'.fd = c.fd) with
      | true =>
          obtain rfl | hc := List.mem_cons.mp hc
          · rfl
          · exact absurd (List.mem_map.mpr ⟨c, hc, (of_decide_eq_true hfd).symm⟩) hd'.1
      | false =>
          obtain rfl | hc := List.mem_cons.mp hc
          · exact absurd rfl (of_decide_eq_false hfd)
          · exact ih hd'.2 hc

theorem releaseClient_alike {l m l' : Listener} {me you : Client} (hl : l.Alike m)
    (hme : me.Alike you) (h : releaseClient fl l me = some l') :
    ∃ m', releaseClient fl m you = some m' ∧ l'.Alike m' := by
  unfold releaseClient at h ⊢
  rw [hl.device, hme.receiving, hme.fd]
  have hclients := removeClient_alike hl.clients me.fd
  split_ifs at h ⊢
  · obtain ⟨d, hd, rfl⟩ := Option.map_eq_some_iff.mp h
    rw [hd]
    exact ⟨_, rfl, hl.server, rfl, hl.recvList, hclients⟩
  · obtain rfl := Option.some.inj h
    exact ⟨_, rfl, hl.server, rfl, hl.recvList, hclients⟩

theorem afterReply_alike {l m l' : Listener} {me you : Client} {written : Bool} {code code' : Byte}
    (hl : l.Alike m) (hme : me.Alike you) (hcode : code' = IG_DEV_SETID ↔ code = IG_DEV_SETID)
    (h : afterReply fl l me written code = some l') :
    ∃ m', afterReply fl m you written code' = some m' ∧ l'.Alike m' := by
  unfold afterReply at h ⊢
  simp only [hcode]
  split_ifs at h ⊢
  · obtain ⟨d, hd, rfl⟩ := Option.map_eq_some_iff.mp h
    rw [hl.device, hl.server, hd]
    exact ⟨_, rfl, rfl, rfl, hl.recvList, hl.clients⟩
  · obtain rfl := Option.some.inj h
    exact ⟨m, rfl, hl⟩
  · exact releaseClient_alike hl hme h

/-! ### One event -/

/-- A readable client whose request is the same in two versions. -/
theorem handleClient_alike {l m l' : Listener} {me you : Client} {o : Output} {a b : Arrival}
    {errno : ℕ} {resetOk written : Bool} (hl : l.Alike m) (hme : me.Alike you)
    (hfind : l.clients.find? (·.fd = me.fd) = some me)
    (hfind' : m.clients.find? (·.fd = you.fd) = some you)
    (hread : Option.Rel (SameRequest me.version you.version) (readDataPacket a) (readDataPacket b))
    (h : handleClient fl l me ⟨a, errno, resetOk, written⟩ = some (l', o)) :
    ∃ m' o', handleClient fl m you ⟨b, errno, resetOk, written⟩ = some (m', o') ∧ l'.Alike m' ∧
      heard m.clients o' = heard l.clients o := by
  obtain ⟨hnone, hrel, rfl⟩ | ⟨p, s, ok, frame, hp, hreq, hframe, hafter, rfl⟩ :=
    handleClient_spec h
  · obtain ⟨m', hrel', halike⟩ := releaseClient_alike hl hme hrel
    have hnone' : readDataPacket b = none := by
      rw [show readDataPacket a = none from hnone] at hread
      cases hb : readDataPacket b with
      | none => rfl
      | some q =>
          rw [hb] at hread
          cases hread
    refine ⟨m', ⟨none, []⟩, ?_, halike, rfl⟩
    simp only [handleClient, hnone', hrel', Option.map_some]
  · obtain ⟨q, hq, hsame⟩ : ∃ q, readDataPacket b = some q ∧
        SameRequest me.version you.version p q := by
      rw [show readDataPacket a = some p from hp] at hread
      cases hb : readDataPacket b with
      | none =>
          rw [hb] at hread
          cases hread
      | some q =>
          rw [hb] at hread
          cases hread with
          | some h => exact ⟨q, rfl, h⟩
    have hsession : (l.session me p).Alike (m.session you q) := ⟨hl.server, hl.device, hme⟩
    obtain ⟨t, hreq', halike, hreply⟩ := handleClientRequest_alike hsession hsame hreq
    obtain ⟨hcode, hset, hframe'⟩ := replyPacket_same hme.known hreply errno
    have hbehind : (l.behind s).Alike (m.behind t) :=
      ⟨halike.server, halike.device, hl.recvList, updateClient_alike hl.clients halike.target⟩
    obtain ⟨m', hafter', hm'⟩ := afterReply_alike hbehind halike.target hset hafter
    rw [show (replyPacket ok s.request errno).frame = some frame from hframe] at hframe'
    refine ⟨m', ⟨(translateProtocol q.code you.version false).map (·, ok),
      if written then [(you.fd, { frame with code := (replyPacket ok t.request errno).code })]
      else []⟩, ?_, hm', ?_⟩
    · simp only [handleClient, hq, hreq', hframe', hafter', Option.bind_eq_bind, Option.bind_some,
        Option.map_some]
    · have hheard := @heardFrame_alike l.clients m.clients me you hfind hfind' hme frame _
        (hcode.trans (by rw [DataPacket.frame_code hframe]))
      unfold heard
      dsimp only
      rw [hsame.code]
      cases written with
      | false => rfl
      | true => simp only [if_true, List.map_cons, List.map_nil, hheard]

/-- The clients of a list are those that its descriptors stand for. -/
def Found (all cs : List Client) : Prop := ∀ c ∈ cs, all.find? (·.fd = c.fd) = some c

theorem Found.sublist {all cs cs' : List Client} (h : Found all cs) (hsub : cs'.Sublist cs) :
    Found all cs' := fun c hc => h c (hsub.subset hc)

/-- A signal that is told to a client in two versions. -/
theorem tellReceivers_alike {packet : DataPacket} {translated : Bool} {written : Fd → Bool}
    {cs ds : List Client} {c d : Client} {stays : Bool} {frames : List (Fd × Frame)}
    (hcode : packet.code = IG_DEV_RECV ∨ packet.code = IG_DEV_OVERRECV) (halike : c.Alike d)
    (hc : cs.find? (·.fd = c.fd) = some c) (hd : ds.find? (·.fd = d.fd) = some d)
    (h : tellReceivers packet translated written c = some (stays, frames)) :
    ∃ frames', tellReceivers packet translated written d = some (stays, frames') ∧
      frames'.map (heardFrame ds) = frames.map (heardFrame cs) := by
  have hcommon : (translateProtocol packet.code d.version true).isSome =
      (translateProtocol packet.code c.version true).isSome := by
    refine translateProtocol_common halike.known ?_ ?_ <;> rcases hcode with h | h <;> rw [h] <;> decide
  unfold tellReceivers at h ⊢
  rw [halike.receiving]
  by_cases hears : (c.receiving = IG_DEV_RECVON ∧ translated = true) ∨
    (c.receiving = IG_DEV_RAWRECVON ∧ ¬translated = true)
  · rw [if_pos hears] at h ⊢
    cases ha : translateProtocol packet.code c.version true with
    | none =>
        rw [ha, Option.isSome_none, Option.isSome_eq_false_iff, Option.isNone_iff_eq_none] at hcommon
        simp only [ha] at h
        obtain ⟨rfl, rfl⟩ := Prod.mk.inj (Option.some.inj h)
        simp only [hcommon]
        exact ⟨[], rfl, rfl⟩
    | some a =>
        rw [ha, Option.isSome_some] at hcommon
        obtain ⟨b, hb⟩ := Option.isSome_iff_exists.mp hcommon
        simp only [ha] at h
        obtain ⟨frame, hframe, h⟩ := Option.map_eq_some_iff.mp h
        obtain ⟨rfl, rfl⟩ := Prod.mk.inj h
        have hframe' := frame_setCode { packet with code := a } b
        rw [hframe, Option.map_some] at hframe'
        have hheard := @heardFrame_alike cs ds c d hc hd halike frame b (by
          rw [DataPacket.frame_code hframe]
          exact (translateProtocol_inverse hb).trans (translateProtocol_inverse ha).symm)
        simp only [hb, hframe', Option.map_some]
        refine ⟨_, rfl, ?_⟩
        rw [halike.fd] at hheard ⊢
        split_ifs
        · rw [List.map_cons, List.map_cons, hheard, List.map_nil, List.map_nil]
        · rfl
  · rw [if_neg hears] at h ⊢
    obtain ⟨rfl, rfl⟩ := Prod.mk.inj (Option.some.inj h)
    exact ⟨[], rfl, rfl⟩

theorem forEach_alike {packet : DataPacket} {translated : Bool} {written : Fd → Bool}
    {cs ds : List Client} (hcode : packet.code = IG_DEV_RECV ∨ packet.code = IG_DEV_OVERRECV)
    {xs ys : List Client} (halike : List.Forall₂ Client.Alike xs ys) (hxs : Found cs xs)
    (hys : Found ds ys) {xs' : List Client} {frames : List (Fd × Frame)}
    (h : forEach (tellReceivers packet translated written) xs = some (xs', frames)) :
    ∃ ys' frames', forEach (tellReceivers packet translated written) ys = some (ys', frames') ∧
      List.Forall₂ Client.Alike xs' ys' ∧
      frames'.map (heardFrame ds) = frames.map (heardFrame cs) := by
  induction halike generalizing xs' frames with
  | nil =>
      obtain ⟨rfl, rfl⟩ := Prod.mk.inj (Option.some.inj h)
      exact ⟨[], [], rfl, .nil, rfl⟩
  | @cons c d xs ys hhead hrest ih =>
      simp only [forEach, Option.bind_eq_bind, Option.bind_eq_some_iff, Prod.exists] at h
      obtain ⟨stays, first, hfirst, rest, more, hmore, h⟩ := h
      obtain ⟨rfl, rfl⟩ := Prod.mk.inj (Option.some.inj h)
      obtain ⟨first', hfirst', hheard⟩ := tellReceivers_alike hcode hhead
        (hxs c (List.mem_cons_self ..)) (hys d (List.mem_cons_self ..)) hfirst
      obtain ⟨rest', more', hmore', hrest', hheard'⟩ :=
        ih (fun c hc => hxs c (List.mem_cons_of_mem _ hc))
          (fun d hd => hys d (List.mem_cons_of_mem _ hd)) hmore
      refine ⟨if stays then d :: rest' else rest', first' ++ more', ?_, ?_, ?_⟩
      · simp only [forEach, hfirst', hmore', Option.bind_eq_bind, Option.bind_some]
      · cases stays with
        | true => exact .cons hhead hrest'
        | false => exact hrest'
      · rw [List.map_append, List.map_append, hheard, hheard']

/-- A packet of the device that is told to clients in two versions. -/
theorem tellPacket_alike {packet : DataPacket} {written : Fd → Bool} {cs ds cs' : List Client}
    {frames : List (Fd × Frame)} (halike : List.Forall₂ Client.Alike cs ds) (hcs : Found cs cs)
    (hds : Found ds ds) (h : tellPacket packet written cs = some (cs', frames)) :
    ∃ ds' frames', tellPacket packet written ds = some (ds', frames') ∧
      List.Forall₂ Client.Alike cs' ds' ∧
      frames'.map (heardFrame ds) = frames.map (heardFrame cs) := by
  unfold tellPacket at h ⊢
  split_ifs at h ⊢ with hrecv hover
  · simp only [tellSignal, Option.bind_eq_bind, Option.bind_eq_some_iff, Prod.exists] at h
    obtain ⟨cs₁, raw, h₁, bytes, hbytes, words, hwords, cs₂, told, h₂, h⟩ := h
    obtain ⟨rfl, rfl⟩ := Prod.mk.inj (Option.some.inj h)
    obtain ⟨ds₁, raw', h₁', halike₁, hheard₁⟩ := forEach_alike (.inl hrecv) halike hcs hds h₁
    have hpulses : (pulsePacket packet words).code = IG_DEV_RECV := hrecv
    obtain ⟨ds₂, told', h₂', halike₂, hheard₂⟩ := forEach_alike (.inl hpulses) halike₁
      (hcs.sublist (forEach_sublist h₁)) (hds.sublist (forEach_sublist h₁')) h₂
    refine ⟨ds₂, raw' ++ told', ?_, halike₂, ?_⟩
    · simp only [tellSignal, h₁', hbytes, hwords, h₂', Option.bind_eq_bind, Option.bind_some]
    · rw [List.map_append, List.map_append, hheard₁, hheard₂]
  · exact forEach_alike (.inr hover) halike hcs hds h
  · obtain ⟨rfl, rfl⟩ := Prod.mk.inj (Option.some.inj h)
    exact ⟨ds, [], rfl, halike, rfl⟩

/-! ### Whole runs -/

/-- Two events that are the same but for the versions that the clients speak. -/
inductive SameEvent (l m : Listener) : Event → Event → Prop where
  | connected (fd : Fd) : SameEvent l m (.connected fd) (.connected fd)
  | readable (fd : Fd) {a b : Arrival} (errno : ℕ) (resetOk written : Bool)
      (read : ∀ me ∈ l.clients.find? (·.fd = fd), ∀ you ∈ m.clients.find? (·.fd = fd),
        Option.Rel (SameRequest me.version you.version) (readDataPacket a) (readDataPacket b)) :
      SameEvent l m (.readable fd ⟨a, errno, resetOk, written⟩)
        (.readable fd ⟨b, errno, resetOk, written⟩)
  | queued (packet : DataPacket) : SameEvent l m (.queued packet) (.queued packet)
  | fromReader (written : Fd → Bool) : SameEvent l m (.fromReader written) (.fromReader written)
  | otherThreads (server : Server) : SameEvent l m (.otherThreads server) (.otherThreads server)

/-- One event, and what the clients hear of it. -/
def heardStep (fl : ℚ → ℚ) (l : Listener) (e : Event) :
    Option (Listener × Option (Byte × Bool) × List (Fd × Option Frame)) :=
  (listenStep fl l e).map (fun r => (r.1, heard l.clients r.2))

theorem Distinct.found {cs : List Client} (hd : Distinct cs) : Found cs cs := fun _ hc => hd.find hc

theorem handleReader_alike {l m l' : Listener} {written : Fd → Bool} {o : Output} (hl : l.Alike m)
    (hfound : Found l.clients l.clients) (hfound' : Found m.clients m.clients)
    (h : handleReader l written = some (l', o)) :
    ∃ m' o', handleReader m written = some (m', o') ∧ l'.Alike m' ∧
      heard m.clients o' = heard l.clients o := by
  unfold handleReader at h ⊢
  rw [hl.recvList]
  cases hqueue : l.recvList with
  | nil =>
      rw [hqueue] at h
      cases h
  | cons packet rest =>
      rw [hqueue] at h
      obtain ⟨⟨clients, frames⟩, htell, h⟩ := Option.map_eq_some_iff.mp h
      obtain ⟨rfl, rfl⟩ := Prod.mk.inj h
      obtain ⟨clients', frames', htell', halike, hheard⟩ :=
        tellPacket_alike hl.clients hfound hfound' htell
      refine ⟨{ m with recvList := rest, clients := clients' }, ⟨none, frames'⟩, ?_,
        ⟨hl.server, hl.device, rfl, halike⟩, congrArg (Prod.mk none) hheard⟩
      simp only [htell', Option.map_some]

/-- **One event in two versions**: the same is done, and the clients hear the same. -/
theorem listenStep_alike {l m l' : Listener} {e f : Event} {o : Output} (hl : l.Alike m)
    (hd : Distinct l.clients) (hsame : SameEvent l m e f)
    (h : listenStep fl l e = some (l', o)) :
    ∃ m' o', listenStep fl m f = some (m', o') ∧ l'.Alike m' ∧
      heard m.clients o' = heard l.clients o := by
  have hfds : m.clients.map (·.fd) = l.clients.map (·.fd) := fds_alike hl.clients
  have hd' : Distinct m.clients := by
    unfold Distinct
    rwa [hfds]
  cases hsame with
  | connected fd =>
      obtain ⟨l₁, hconn, h⟩ := Option.map_eq_some_iff.mp h
      obtain ⟨rfl, rfl⟩ := Prod.mk.inj h
      unfold clientConnected at hconn
      split_ifs at hconn with hfd
      obtain rfl := Option.some.inj hconn
      have hconn' : clientConnected m fd = some { m with clients := m.clients ++ [⟨fd, 0, 0⟩] } :=
        if_neg (by rwa [hfds])
      refine ⟨{ m with clients := m.clients ++ [⟨fd, 0, 0⟩] }, ⟨none, []⟩, ?_,
        ⟨hl.server, hl.device, hl.recvList, ?_⟩, rfl⟩
      · rw [listenStep, hconn', Option.map_some]
      · exact List.rel_append hl.clients (.cons ⟨rfl, rfl, Iff.rfl⟩ .nil)
  | readable fd errno resetOk written read =>
      obtain ⟨me, hme, hclient⟩ := Option.bind_eq_some_iff.mp h
      obtain ⟨you, hyou, halike⟩ := find_alike hl.clients hme
      obtain ⟨hmem, rfl⟩ := find_client hme
      have hyou' : m.clients.find? (·.fd = you.fd) = some you := by rwa [halike.fd]
      obtain ⟨m', o', hclient', hm', hheard⟩ :=
        handleClient_alike hl halike hme hyou' (read me hme you hyou) hclient
      exact ⟨m', o', Option.bind_eq_some_iff.mpr ⟨you, hyou, hclient'⟩, hm', hheard⟩
  | queued packet =>
      obtain ⟨rfl, rfl⟩ := Prod.mk.inj (Option.some.inj h)
      exact ⟨{ m with recvList := m.recvList ++ [packet] }, ⟨none, []⟩, rfl,
        ⟨hl.server, hl.device, congrArg (· ++ [packet]) hl.recvList, hl.clients⟩, rfl⟩
  | fromReader written => exact handleReader_alike hl hd.found hd'.found h
  | otherThreads server =>
      obtain ⟨rfl, rfl⟩ := Prod.mk.inj (Option.some.inj h)
      exact ⟨{ m with server := server }, ⟨none, []⟩, rfl,
        ⟨rfl, hl.device, hl.recvList, hl.clients⟩, rfl⟩

theorem heardStep_alike (l m : Listener) (e f : Event) (l' : Listener)
    (o : Option (Byte × Bool) × List (Fd × Option Frame)) (hl : l.Alike m ∧ Distinct l.clients)
    (hsame : SameEvent l m e f) (h : heardStep fl l e = some (l', o)) :
    ∃ m', heardStep fl m f = some (m', o) ∧ l'.Alike m' ∧ Distinct l'.clients := by
  obtain ⟨⟨l₁, o₁⟩, hstep, h⟩ := Option.map_eq_some_iff.mp h
  obtain ⟨rfl, rfl⟩ := Prod.mk.inj h
  obtain ⟨m₁, o₂, hstep', halike, hheard⟩ := listenStep_alike hl.1 hl.2 hsame hstep
  refine ⟨m₁, ?_, halike, listenStep_distinct l e l₁ o₁ hl.2 hstep⟩
  rw [heardStep, hstep', Option.map_some, hheard]

/-- **The versions of the protocol are encodings.**  Two runs whose clients ask for the same, each
in the version that it speaks at the time, go through states that differ in these versions alone,
and the clients hear the same. -/
theorem sameRequests_heard {l m l' : Listener} {es fs : List Event}
    {os : List (Option (Byte × Bool) × List (Fd × Option Frame))} (hd : Distinct l.clients)
    (hl : l.Alike m) (hsame : Transition.Paired (heardStep fl) SameEvent l m es fs)
    (hrun : Transition.run (heardStep fl) l es = some (l', os)) :
    ∃ m', Transition.run (heardStep fl) m fs = some (m', os) ∧ l'.Alike m' := by
  obtain ⟨m', hrun', halike, -⟩ :=
    Transition.run_paired heardStep_alike es fs l m l' os ⟨hl, hd⟩ hsame hrun
  exact ⟨m', hrun', halike⟩

/-- A client that asks to receive, announces a version, and is told of a signal of two bytes. -/
def versionEvents (code : Byte) (version : Version) : List Event :=
  [.readable 3 (bareInput code),
    .readable 3 ⟨.whole IG_EXCH_VERSIONS 2 (halfBytes version), 0, true, true⟩,
    .queued ⟨IG_DEV_RECV, 2, some [0x05, 0x85]⟩, .fromReader (fun _ => true)]

/-- A client of the current version that goes on in version 0, and one of version 0 that goes on in
the current one. -/
theorem sameRequests_heard_swapped : ∃ l' os,
    Transition.run (heardStep Binary64.nearest) recvOnWorker (versionEvents IG_DEV_RECVON 0) =
      some (l', os) ∧
    ∃ m', Transition.run (heardStep Binary64.nearest)
        { recvOnWorker with clients := [⟨3, 0, 0⟩] } (versionEvents 0x03 IG_PROTOCOL_VERSION) =
      some (m', os) ∧ l'.Alike m' := by
  have hd : Distinct recvOnWorker.clients := List.nodup_singleton _
  have hl : recvOnWorker.Alike { recvOnWorker with clients := [⟨3, 0, 0⟩] } :=
    ⟨rfl, rfl, rfl, .cons ⟨rfl, rfl, by decide⟩ .nil⟩
  have hrequest : SameEvent recvOnWorker { recvOnWorker with clients := [⟨3, 0, 0⟩] }
      (.readable 3 (bareInput IG_DEV_RECVON)) (.readable 3 (bareInput 0x03)) := by
    refine .readable 3 0 true true (fun me hme you hyou => ?_)
    obtain rfl := Option.some.inj hme
    obtain rfl := Option.some.inj hyou
    exact .some (.same 0 none rfl)
  obtain ⟨⟨l', os⟩, hrun⟩ : ∃ r, Transition.run (heardStep Binary64.nearest) recvOnWorker
    (versionEvents IG_DEV_RECVON 0) = some r := ⟨_, rfl⟩
  refine ⟨l', os, hrun, sameRequests_heard hd hl ?_ hrun⟩
  refine Transition.paired_cons hrequest rfl rfl (Transition.paired_cons
    (.readable 3 0 true true (fun me hme you hyou => .some ?_)) rfl rfl
    (Transition.paired_cons (.queued _) rfl rfl (Transition.paired_cons (.fromReader _) rfl rfl
      trivial)))
  exact .announced 2 [] (by decide)

end IguanaIR
