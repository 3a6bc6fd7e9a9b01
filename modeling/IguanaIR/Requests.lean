import IguanaIR.ClientInterface

/-! # What a request changes

The code, the client and the books of the device (its version and its count of receivers) behind
each stage of `handleClientRequest`.  A stage changes little of this: the `switch` renames raw
receives, turns a receiver off and takes the client's version, the device transaction may leave
the code of a half of an old pin configuration behind, and a success counts a receiver. -/

namespace IguanaIR

variable {fl : ℚ → ℚ}

/-! ### The books of a device -/

/-- What of a device the requests of clients have to agree on. -/
def Device.books (d : Device) : Version × BitVec 32 := (d.idev.version, d.idev.receiverCount)

theorem Device.Keeps.books {d d' : Device} (h : d.Keeps d') : d'.books = d.books := by
  unfold Device.books
  rw [h.version, h.receiverCount]

/-- The books of the session's device. -/
def Session.books (s : Session) : Option (Version × BitVec 32) := s.device.map Device.books

/-- The code behind the `switch`. -/
def switchedCode (code : Byte) : Byte := if code = IG_DEV_RAWRECVON then IG_DEV_RECVON else code

/-- The books behind the `switch`. -/
def switchedBooks (code : Byte) (books : Version × BitVec 32) : Version × BitVec 32 :=
  if code = IG_DEV_RECVOFF ∧ 0 < books.2 then (books.1, books.2 - 1) else books

/-- The books behind a success that may count a receiver. -/
def recordedBooks (counts : Prop) [Decidable counts] (books : Version × BitVec 32) :
    Version × BitVec 32 :=
  if counts then (books.1, books.2 + 1) else books

theorem map_switchedBooks {code : Byte} (h : code ≠ IG_DEV_RECVOFF)
    (books : Option (Version × BitVec 32)) : books.map (switchedBooks code) = books := by
  have hid : switchedBooks code = id := funext fun _ => if_neg (fun hc => h hc.1)
  rw [hid, Option.map_id, id]

theorem map_recordedBooks {counts : Prop} [Decidable counts] (h : ¬counts)
    (books : Option (Version × BitVec 32)) : books.map (recordedBooks counts) = books := by
  have hid : recordedBooks counts = id := funext fun _ => if_neg h
  rw [hid, Option.map_id, id]

theorem recordedBooks_congr {p q : Prop} [Decidable p] [Decidable q] (h : p ↔ q) :
    recordedBooks p = recordedBooks q := funext fun _ => if_congr h rfl rfl

/-- The client's mode behind the `switch`. -/
def switchedMode (code mode : Byte) : Byte := if code = IG_DEV_RECVOFF then 0 else mode

/-- The code behind a transaction that succeeds: old pin configurations end with that of their
second half. -/
def forwardedCode : Option Version → Byte → Byte
  | none, code => code
  | some version, code =>
      if splitsRequest version code then
        if code = IG_DEV_SETPINCONFIG then IG_DEV_SETCONFIG1 else IG_DEV_GETCONFIG1
      else code

/-- The code that a request which succeeds ends with. -/
def finalCode (version : Option Version) (code : Byte) : Byte :=
  forwardedCode version (switchedCode code)

/-! ### The cases of the `switch` -/

/-- What the `switch` does in each case: the session behind it, and whether the request is
handled. -/
inductive SwitchCase (fl : ℚ → ℚ) (s : Session) : Session → Bool → Prop where
  | getFeatures {d d' : Device} {known : Bool} (hd : s.device = some d)
      (hcode : s.request.code = IG_DEV_GETFEATURES)
      (hk : checkFeatures fl d UNKNOWN_FEATURES = some (d', known)) :
      SwitchCase fl s
        (if known then (s.setDevice d').reply [d'.idev.features] else s.setDevice d') known
  | recvOn {d : Device} (hd : s.device = some d)
      (hcode : s.request.code = IG_DEV_RECVON ∨ s.request.code = IG_DEV_RAWRECVON) :
      SwitchCase fl s (recvOn s d).1 (recvOn s d).2
  | recvOff {d : Device} (hd : s.device = some d) (hcode : s.request.code = IG_DEV_RECVOFF) :
      SwitchCase fl s (recvOff s d).1 (recvOff s d).2
  | getChannels {d d' : Device} {slot : Bool} (bytes : List Byte) (hd : s.device = some d)
      (hcode : s.request.code = IG_DEV_GETCHANNELS)
      (hk : checkFeatures fl d IG_SLOT_DEV = some (d', slot)) :
      SwitchCase fl s ((s.setDevice d').reply bytes) true
  | setChannels {d d' : Device} {slot : Bool} (channels : Byte) (hd : s.device = some d)
      (hcode : s.request.code = IG_DEV_SETCHANNELS)
      (hk : checkFeatures fl d IG_SLOT_DEV = some (d', slot)) :
      SwitchCase fl s (s.setDevice (d'.setChannels channels)) true
  | setCarrier {d : Device} (carrier : Carrier) (hd : s.device = some d)
      (hcode : s.request.code = IG_DEV_SETCARRIER) :
      SwitchCase fl s
        ((s.setDevice (d.setCarrier carrier)).overwrite (htonlBytes carrier.word)) true
  | send {d : Device} (dataLen : ℤ) (data : Option (List Byte)) (hd : s.device = some d)
      (hcode : s.request.code = IG_DEV_SEND) :
      SwitchCase fl s { s with request := { s.request with data := data, dataLen := dataLen } } false
  | exchVersions (version : Version) (hcode : s.request.code = IG_EXCH_VERSIONS) :
      SwitchCase fl s (({ s with target := { s.target with version := version } }).overwrite
        (halfBytes IG_PROTOCOL_VERSION)) true
  | readLabels (readLabels : Bool)
      (hcode : s.request.code = IG_DEV_IDSOFF ∨ s.request.code = IG_DEV_IDSON) :
      SwitchCase fl s { s with server := { s.server with readLabels := readLabels } } true
  | reply (bytes : List Byte) (hcode : s.request.code ∈
        [IG_DEV_GETCARRIER, IG_DEV_GETLOCATION, IG_DEV_SENDSIZE, IG_DEV_IDSTATE]) :
      SwitchCase fl s (s.reply bytes) true
  | replyString (string : Option CString) (hcode : s.request.code ∈
        [IG_DEV_LISTALIASES, IG_DEV_GETADDRESS, IG_CTL_LISTDEVS, IG_CTL_DEVADDR]) :
      SwitchCase fl s (s.replyString string) true
  | forward (hcode : needsDevice s.request.code = false) : SwitchCase fl s s false

/-- A request that goes through the device has one. -/
theorem switchRequest_device {s s' : Session} {ok : Bool}
    (hcode : needsDevice s.request.code = true) (h : switchRequest fl s = some (s', ok)) :
    ∃ d, s.device = some d ∧ deviceCases fl s d = some (s', ok) := by
  unfold switchRequest at h
  dsimp only at h
  rw [if_pos hcode] at h
  exact Option.bind_eq_some_iff.mp h

theorem deviceCases_cases {s s' : Session} {d : Device} {ok : Bool} (hd : s.device = some d)
    (hneeds : needsDevice s.request.code = true) (h : deviceCases fl s d = some (s', ok)) :
    SwitchCase fl s s' ok := by
  unfold deviceCases at h
  dsimp only at h
  by_cases hfeatures : s.request.code = IG_DEV_GETFEATURES
  · rw [if_pos hfeatures] at h
    simp only [IguanaIR.getFeatures, Option.bind_eq_bind, Option.bind_eq_some_iff,
      Prod.exists] at h
    obtain ⟨d', known, hk, h⟩ := h
    have hcase := SwitchCase.getFeatures hd hfeatures hk
    cases known with
    | true =>
        rw [if_pos rfl] at h
        obtain ⟨rfl, rfl⟩ := Prod.mk.inj (Option.some.inj h)
        exact hcase
    | false =>
        rw [if_neg Bool.false_ne_true] at h
        obtain ⟨rfl, rfl⟩ := Prod.mk.inj (Option.some.inj h)
        exact hcase
  rw [if_neg hfeatures] at h
  by_cases hon : s.request.code = IG_DEV_RECVON ∨ s.request.code = IG_DEV_RAWRECVON
  · rw [if_pos hon] at h
    obtain ⟨rfl, rfl⟩ := Prod.mk.inj (Option.some.inj h)
    exact .recvOn hd hon
  rw [if_neg hon] at h
  by_cases hoff : s.request.code = IG_DEV_RECVOFF
  · rw [if_pos hoff] at h
    have hcase := @SwitchCase.recvOff fl s d hd hoff
    rwa [Option.some.inj h] at hcase
  rw [if_neg hoff] at h
  by_cases hget : s.request.code = IG_DEV_GETCHANNELS
  · rw [if_pos hget] at h
    simp only [IguanaIR.getChannels, Option.bind_eq_bind, Option.bind_eq_some_iff,
      Prod.exists] at h
    obtain ⟨d', slot, hk, h⟩ := h
    obtain ⟨rfl, rfl⟩ := Prod.mk.inj (Option.some.inj h)
    exact .getChannels _ hd hget hk
  rw [if_neg hget] at h
  by_cases hset : s.request.code = IG_DEV_SETCHANNELS
  · rw [if_pos hset] at h
    simp only [IguanaIR.setChannels, Option.bind_eq_bind, Option.bind_eq_some_iff,
      Prod.exists] at h
    obtain ⟨d', slot, hk, bytes, -, h⟩ := h
    obtain ⟨rfl, rfl⟩ := Prod.mk.inj (Option.some.inj h)
    exact .setChannels _ hd hset hk
  rw [if_neg hset] at h
  by_cases hcarrier : s.request.code = IG_DEV_GETCARRIER
  · rw [if_pos hcarrier] at h
    obtain ⟨rfl, rfl⟩ := Prod.mk.inj (Option.some.inj h)
    exact .reply _ (by simp [hcarrier])
  rw [if_neg hcarrier] at h
  by_cases hfreq : s.request.code = IG_DEV_SETCARRIER
  · rw [if_pos hfreq] at h
    simp only [IguanaIR.setCarrier, Option.bind_eq_bind, Option.bind_eq_some_iff] at h
    obtain ⟨bytes, -, h⟩ := h
    obtain ⟨rfl, rfl⟩ := Prod.mk.inj (Option.some.inj h)
    exact .setCarrier _ hd hfreq
  rw [if_neg hfreq] at h
  by_cases hplace : s.request.code = IG_DEV_GETLOCATION
  · rw [if_pos hplace] at h
    obtain ⟨rfl, rfl⟩ := Prod.mk.inj (Option.some.inj h)
    exact .reply _ (by simp [hplace])
  rw [if_neg hplace] at h
  by_cases hsend : s.request.code = IG_DEV_SEND
  · rw [if_pos hsend] at h
    simp only [sendRequest, Option.bind_eq_bind, Option.bind_eq_some_iff] at h
    obtain ⟨codes, -, h⟩ := h
    obtain ⟨rfl, rfl⟩ := Prod.mk.inj (Option.some.inj h)
    exact .send _ _ hd hsend
  rw [if_neg hsend] at h
  by_cases hsize : s.request.code = IG_DEV_SENDSIZE
  · rw [if_pos hsize] at h
    simp only [sendSize, Option.bind_eq_bind, Option.bind_eq_some_iff] at h
    obtain ⟨codes, -, h⟩ := h
    obtain ⟨rfl, rfl⟩ := Prod.mk.inj (Option.some.inj h)
    exact .reply _ (by simp [hsize])
  rw [if_neg hsize] at h
  -- the two summaries are left
  have hcode : s.request.code = IG_DEV_LISTALIASES ∨ s.request.code = IG_DEV_GETADDRESS := by
    simpa [needsDevice, hfeatures, not_or.mp hon, hoff, hget, hset, hcarrier, hfreq, hplace, hsend,
      hsize] using hneeds
  rcases hcode with hcode | hcode
  · rw [if_pos hcode] at h
    obtain ⟨rfl, rfl⟩ := Prod.mk.inj (Option.some.inj h)
    exact .replyString _ (by simp [hcode])
  · rw [if_neg (by rw [hcode]; decide)] at h
    obtain ⟨rfl, rfl⟩ := Prod.mk.inj (Option.some.inj h)
    exact .replyString _ (by simp [hcode])

/-- **The `switch`** does one of these. -/
theorem switchRequest_cases {s s' : Session} {ok : Bool}
    (h : switchRequest fl s = some (s', ok)) : SwitchCase fl s s' ok := by
  by_cases hneeds : needsDevice s.request.code = true
  · obtain ⟨d, hd, h⟩ := switchRequest_device hneeds h
    exact deviceCases_cases hd hneeds h
  unfold switchRequest at h
  dsimp only at h
  rw [if_neg hneeds] at h
  by_cases hexch : s.request.code = IG_EXCH_VERSIONS
  · rw [if_pos hexch] at h
    simp only [IguanaIR.exchVersions, Option.bind_eq_bind, Option.bind_eq_some_iff] at h
    obtain ⟨bytes, -, h⟩ := h
    obtain ⟨rfl, rfl⟩ := Prod.mk.inj (Option.some.inj h)
    exact .exchVersions _ hexch
  rw [if_neg hexch] at h
  by_cases hlist : s.request.code = IG_CTL_LISTDEVS
  · rw [if_pos hlist] at h
    obtain ⟨rfl, rfl⟩ := Prod.mk.inj (Option.some.inj h)
    exact .replyString _ (by simp [hlist])
  rw [if_neg hlist] at h
  by_cases haddr : s.request.code = IG_CTL_DEVADDR
  · rw [if_pos haddr] at h
    simp only [ctlDevAddr, Option.bind_eq_bind, Option.bind_eq_some_iff] at h
    obtain ⟨bytes, -, name, -, address, -, h⟩ := h
    obtain ⟨rfl, rfl⟩ := Prod.mk.inj (Option.some.inj h)
    exact .replyString _ (by simp [haddr])
  rw [if_neg haddr] at h
  by_cases hoff : s.request.code = IG_DEV_IDSOFF
  · rw [if_pos hoff] at h
    obtain ⟨rfl, rfl⟩ := Prod.mk.inj (Option.some.inj h)
    exact .readLabels false (.inl hoff)
  rw [if_neg hoff] at h
  by_cases hon : s.request.code = IG_DEV_IDSON
  · rw [if_pos hon] at h
    obtain ⟨rfl, rfl⟩ := Prod.mk.inj (Option.some.inj h)
    exact .readLabels true (.inr hon)
  rw [if_neg hon] at h
  by_cases hstate : s.request.code = IG_DEV_IDSTATE
  · rw [if_pos hstate] at h
    obtain ⟨rfl, rfl⟩ := Prod.mk.inj (Option.some.inj h)
    exact .reply _ (by simp [hstate])
  rw [if_neg hstate] at h
  obtain ⟨rfl, rfl⟩ := Prod.mk.inj (Option.some.inj h)
  exact .forward (by simpa using hneeds)

/-! ### What the `switch` changes -/

/-- What the `switch` does to code, client and books. -/
structure Switched (s s' : Session) : Prop where
  code : s'.request.code = switchedCode s.request.code
  fd : s'.target.fd = s.target.fd
  mode : s'.target.receiving = switchedMode s.request.code s.target.receiving
  version : s.request.code ≠ IG_EXCH_VERSIONS → s'.target.version = s.target.version
  books : s'.books = s.books.map (switchedBooks s.request.code)

/-- Code, client and books are as they were. -/
structure Untouched (s s' : Session) : Prop where
  code : s'.request.code = s.request.code
  target : s'.target = s.target
  books : s'.books = s.books

theorem Session.books_version (s : Session) :
    s.books.map Prod.fst = s.device.map (·.idev.version) := by
  rw [Session.books, Option.map_map]
  rfl

/-- The device keeps its version. -/
theorem Switched.device_version {s s' : Session} (h : Switched s s') :
    s'.device.map (·.idev.version) = s.device.map (·.idev.version) := by
  rw [← s'.books_version, ← s.books_version, h.books, Option.map_map]
  congr 1
  funext books
  simp only [Function.comp, switchedBooks]
  split_ifs <;> rfl

namespace Untouched

theorem refl (s : Session) : Untouched s s := ⟨rfl, rfl, rfl⟩

theorem trans {s₁ s₂ s₃ : Session} (h : Untouched s₁ s₂) (h' : Untouched s₂ s₃) :
    Untouched s₁ s₃ :=
  ⟨h'.code.trans h.code, h'.target.trans h.target, h'.books.trans h.books⟩

theorem reply (s : Session) (bytes : List Byte) : Untouched s (s.reply bytes) := ⟨rfl, rfl, rfl⟩

theorem replyString (s : Session) : ∀ string, Untouched s (s.replyString string)
  | none => ⟨rfl, rfl, rfl⟩
  | some _ => ⟨rfl, rfl, rfl⟩

theorem overwrite (s : Session) (bytes : List Byte) : Untouched s (s.overwrite bytes) :=
  ⟨rfl, rfl, rfl⟩

theorem setDevice {s : Session} {d d' : Device} (hd : s.device = some d)
    (h : d'.books = d.books) : Untouched s (s.setDevice d') :=
  ⟨rfl, rfl, by simp [Session.books, Session.setDevice, hd, h]⟩

/-- A request that is neither to receive nor to stop leaves code, client and books alone. -/
theorem switched {s s' : Session} (h : Untouched s s') (hraw : s.request.code ≠ IG_DEV_RAWRECVON)
    (hoff : s.request.code ≠ IG_DEV_RECVOFF) : Switched s s' where
  code := by rw [h.code, switchedCode, if_neg hraw]
  fd := by rw [h.target]
  mode := by rw [h.target, switchedMode, if_neg hoff]
  version _ := by rw [h.target]
  books := by rw [map_switchedBooks hoff, h.books]

end Untouched

theorem recvOn_switched {s : Session} {d : Device} (hd : s.device = some d)
    (hcode : s.request.code = IG_DEV_RECVON ∨ s.request.code = IG_DEV_RAWRECVON) :
    Switched s (recvOn s d).1 := by
  have hoff : s.request.code ≠ IG_DEV_RECVOFF := by
    rcases hcode with h | h <;> rw [h] <;> decide
  refine ⟨?_, rfl, ?_, fun _ => rfl, ?_⟩
  · rcases hcode with h | h <;> rw [h] <;> rfl
  · rw [switchedMode, if_neg hoff]
    rfl
  · simp [recvOn, Session.books, Session.setCode, hd, switchedBooks, hoff]

theorem recvOff_switched {s : Session} {d : Device} (hd : s.device = some d)
    (hcode : s.request.code = IG_DEV_RECVOFF) : Switched s (recvOff s d).1 := by
  have hsame : switchedCode s.request.code = s.request.code := by
    rw [hcode]
    rfl
  have hmode : switchedMode s.request.code s.target.receiving = 0 := if_pos hcode
  unfold recvOff
  dsimp only
  by_cases h : 0 < d.idev.receiverCount
  · have hbooks : switchedBooks s.request.code d.books =
        (d.idev.version, d.idev.receiverCount - 1) := if_pos ⟨hcode, h⟩
    rw [if_pos h]
    refine ⟨hsame.symm, rfl, hmode.symm, fun _ => rfl, ?_⟩
    rw [Session.books, Session.books, hd, Option.map_some, Option.map_some, hbooks]
    rfl
  · have hbooks : switchedBooks s.request.code d.books = d.books := if_neg (fun hc => h hc.2)
    rw [if_neg h]
    refine ⟨hsame.symm, rfl, hmode.symm, fun _ => rfl, ?_⟩
    simp only [Session.books, hd, Option.map_some, hbooks]

theorem exchVersions_switched {s : Session} (version : Version)
    (hcode : s.request.code = IG_EXCH_VERSIONS) :
    Switched s (({ s with target := { s.target with version := version } }).overwrite
      (halfBytes IG_PROTOCOL_VERSION)) := by
  have hoff : s.request.code ≠ IG_DEV_RECVOFF := by
    rw [hcode]
    decide
  refine ⟨?_, rfl, ?_, fun hne => absurd hcode hne, ?_⟩
  · rw [hcode]
    exact hcode
  · rw [hcode]
    rfl
  · rw [map_switchedBooks hoff]
    rfl

theorem switchRequest_switched {s s' : Session} {ok : Bool}
    (h : switchRequest fl s = some (s', ok)) : Switched s s' := by
  have hother {code : Byte} (hcode : s.request.code = code)
      (hne : code ≠ IG_DEV_RAWRECVON ∧ code ≠ IG_DEV_RECVOFF) (hu : Untouched s s') :
      Switched s s' :=
    hu.switched (hcode ▸ hne.1) (hcode ▸ hne.2)
  cases switchRequest_cases h with
  | getFeatures hd hcode hk =>
      have hs := Untouched.setDevice hd (checkFeatures_keeps hk).books
      refine hother hcode (by decide) ?_
      cases ok with
      | true => exact hs.trans (.reply _ _)
      | false => exact hs
  | recvOn hd hcode => exact recvOn_switched hd hcode
  | recvOff hd hcode => exact recvOff_switched hd hcode
  | getChannels bytes hd hcode hk =>
      exact hother hcode (by decide)
        ((Untouched.setDevice hd (checkFeatures_keeps hk).books).trans (.reply _ _))
  | setChannels channels hd hcode hk =>
      exact hother hcode (by decide) (.setDevice hd (checkFeatures_keeps hk).books)
  | @setCarrier d carrier hd hcode =>
      have hbooks : (d.setCarrier carrier).books = d.books := rfl
      exact hother hcode (by decide) ((Untouched.setDevice hd hbooks).trans (.overwrite _ _))
  | send dataLen data hd hcode => exact hother hcode (by decide) ⟨rfl, rfl, rfl⟩
  | exchVersions version hcode => exact exchVersions_switched version hcode
  | readLabels readLabels hcode =>
      rcases hcode with hcode | hcode <;> exact hother hcode (by decide) ⟨rfl, rfl, rfl⟩
  | reply bytes hcode =>
      have hne : ∀ code ∈ [IG_DEV_GETCARRIER, IG_DEV_GETLOCATION, IG_DEV_SENDSIZE, IG_DEV_IDSTATE],
        code ≠ IG_DEV_RAWRECVON ∧ code ≠ IG_DEV_RECVOFF := by decide
      exact hother rfl (hne _ hcode) (.reply _ _)
  | replyString string hcode =>
      have hne : ∀ code ∈ [IG_DEV_LISTALIASES, IG_DEV_GETADDRESS, IG_CTL_LISTDEVS, IG_CTL_DEVADDR],
        code ≠ IG_DEV_RAWRECVON ∧ code ≠ IG_DEV_RECVOFF := by decide
      exact hother rfl (hne _ hcode) (.replyString _ _)
  | forward hcode =>
      refine Untouched.switched (.refl _) (fun hr => ?_) (fun hr => ?_)
      · rw [hr] at hcode
        exact absurd hcode (by decide)
      · rw [hr] at hcode
        exact absurd hcode (by decide)

/-- The daemon does not handle pin configurations itself. -/
theorem switchRequest_pinConfig {s s' : Session} {ok : Bool}
    (hcode : s'.request.code = IG_DEV_SETPINCONFIG ∨ s'.request.code = IG_DEV_GETPINCONFIG)
    (h : switchRequest fl s = some (s', ok)) : ok = false := by
  rw [(switchRequest_switched h).code, switchedCode] at hcode
  split_ifs at hcode
  · exact absurd hcode (by decide)
  · unfold switchRequest at h
    rcases hcode with hc | hc <;>
    · rw [hc] at h
      exact (congrArg Prod.snd (Option.some.inj h)).symm

/-! ### The device transaction and the books -/

theorem forwardedCode_of_not_pinConfig {version : Option Version} {code : Byte}
    (hset : code ≠ IG_DEV_SETPINCONFIG) (hget : code ≠ IG_DEV_GETPINCONFIG) :
    forwardedCode version code = code := by
  cases version with
  | none => rfl
  | some v => exact if_neg (fun h => h.2.elim hset hget)

theorem forwardedCode_recvOn {version : Option Version} {code : Byte} :
    forwardedCode version code = IG_DEV_RECVON ↔ code = IG_DEV_RECVON := by
  by_cases hset : code = IG_DEV_SETPINCONFIG
  · subst hset
    cases version with
    | none => rfl
    | some v =>
        simp only [forwardedCode]
        split_ifs <;> decide
  · by_cases hget : code = IG_DEV_GETPINCONFIG
    · subst hget
      cases version with
      | none => rfl
      | some v =>
          simp only [forwardedCode]
          split_ifs <;> decide
    · rw [forwardedCode_of_not_pinConfig hset hget]

/-- A device transaction that succeeds ends with the forwarded code; one that fails keeps an
`IG_DEV_RESET` for what it is. -/
theorem deviceTransaction_code {d d' : Device} {request : DataPacket} {nullResponse : Bool}
    {a : Answer} (h : deviceTransaction fl d request nullResponse = some (d', a)) :
    (a.ok = true → a.request.code = forwardedCode (some d.idev.version) request.code) ∧
      (a.request.code = IG_DEV_RESET → request.code = IG_DEV_RESET) := by
  unfold deviceTransaction at h
  by_cases hs : splitsRequest d.idev.version request.code
  · rw [if_pos hs] at h
    unfold oldPinConfig at h
    simp only [forwardedCode, if_pos hs]
    split_ifs at h ⊢ with hset
    · obtain ⟨-, hok, hne⟩ := oldSetPinConfig_spec h
      exact ⟨hok, fun hr => absurd hr hne⟩
    · obtain ⟨-, hok, hne⟩ := oldGetPinConfig_spec h
      exact ⟨hok, fun hr => absurd hr hne⟩
  · rw [if_neg hs] at h
    obtain ⟨-, hcode, -⟩ := wholeTransaction_spec h
    simp only [forwardedCode, if_neg hs]
    exact ⟨fun _ => hcode, fun hr => hcode.symm.trans hr⟩

/-- The client and the books are those of `s`, and a success has the forwarded code. -/
structure Forwarded (s s' : Session) (ok : Bool) : Prop where
  target : s'.target = s.target
  books : s'.books = s.books
  code : ok = true →
    s'.request.code = forwardedCode (s.device.map (·.idev.version)) s.request.code

theorem forwardRequest_forwarded {resetOk ok : Bool} {s s' : Session}
    {response : Option DataPacket} (h : forwardRequest fl resetOk s = some (s', ok, response)) :
    Forwarded s s' ok := by
  unfold forwardRequest at h
  cases hd : s.device with
  | none =>
      rw [hd] at h
      obtain ⟨rfl, hok⟩ := Prod.mk.inj (Option.some.inj h)
      obtain ⟨rfl, -⟩ := Prod.mk.inj hok
      exact ⟨rfl, rfl, nofun⟩
  | some d =>
      rw [hd] at h
      simp only [Option.bind_eq_bind, Option.bind_eq_some_iff, Prod.exists] at h
      obtain ⟨d', a, ht, h⟩ := h
      obtain ⟨hcode, hreset⟩ := deviceTransaction_code ht
      have hbooks : (some d').map Device.books = s.books := by
        rw [Session.books, hd, Option.map_some, Option.map_some, (deviceTransaction_keeps ht).books]
      split_ifs at h with hok
      · obtain ⟨rfl, hr⟩ := Prod.mk.inj (Option.some.inj h)
        exact ⟨rfl, hbooks, fun _ => by rw [hd]; exact hcode hok⟩
      · obtain ⟨rfl, hr⟩ := Prod.mk.inj (Option.some.inj h)
        obtain ⟨rfl, -⟩ := Prod.mk.inj hr
        refine ⟨rfl, hbooks, fun hok => ?_⟩
        simp only [Bool.and_eq_true, beq_iff_eq] at hok
        have hreq := hreset hok.1
        rw [forwardedCode_of_not_pinConfig (by rw [hreq]; decide) (by rw [hreq]; decide), hreq]
        exact hok.1

theorem completeRequest_spec {resetOk ok done : Bool} {s s' : Session}
    {response : Option DataPacket}
    (hpin : s.request.code = IG_DEV_SETPINCONFIG ∨ s.request.code = IG_DEV_GETPINCONFIG → ok = false)
    (h : completeRequest fl resetOk s ok = some (s', done, response)) : Forwarded s s' done := by
  unfold completeRequest at h
  split_ifs at h with hok
  · obtain ⟨rfl, h⟩ := Prod.mk.inj (Option.some.inj h)
    refine ⟨rfl, rfl, fun _ => (forwardedCode_of_not_pinConfig ?_ ?_).symm⟩
    · exact fun hc => absurd (hpin (.inl hc)) (by simp [hok])
    · exact fun hc => absurd (hpin (.inr hc)) (by simp [hok])
  · exact forwardRequest_forwarded h

/-- A receiver is counted behind a success with the code `IG_DEV_RECVON`. -/
structure Recorded (s s' : Session) (done : Bool) : Prop where
  code : s'.request.code = s.request.code
  fd : s'.target.fd = s.target.fd
  mode : s'.target.receiving =
    if done = true ∧ s.request.code = IG_DEV_RECVON then IG_DEV_RECVON else s.target.receiving
  version : s'.target.version = s.target.version
  books : s'.books = s.books.map (recordedBooks (done = true ∧ s.request.code = IG_DEV_RECVON))

theorem countReceiver_recorded {s s' : Session} (h : countReceiver s = some s') :
    Recorded s s' true := by
  unfold countReceiver at h
  split_ifs at h with hcode
  · obtain ⟨d, hd, rfl⟩ := Option.map_eq_some_iff.mp h
    refine ⟨rfl, rfl, ?_, rfl, ?_⟩
    · rw [if_pos ⟨rfl, hcode⟩]
      exact hcode
    · simp [Session.books, hd, recordedBooks, hcode, Device.books, Device.setReceiverCount]
  · obtain rfl := Option.some.inj h
    have hne : ¬(true = true ∧ s.request.code = IG_DEV_RECVON) := fun hc => hcode hc.2
    exact ⟨rfl, rfl, (if_neg hne).symm, rfl, (map_recordedBooks hne _).symm⟩

theorem packResponse_recorded {s s' : Session} {done : Bool} (h : Recorded s s' done) :
    ∀ response, Recorded s (packResponse s' response) done
  | none => h
  | some _ => ⟨h.code, h.fd, h.mode, h.version, h.books⟩

theorem recordSuccess_recorded {s s' : Session} {done : Bool} {response : Option DataPacket}
    (h : recordSuccess s done response = some s') : Recorded s s' done := by
  unfold recordSuccess at h
  cases done with
  | true =>
      obtain ⟨s₁, h₁, rfl⟩ := Option.map_eq_some_iff.mp h
      exact packResponse_recorded (countReceiver_recorded h₁) response
  | false =>
      obtain rfl := Option.some.inj h
      exact ⟨rfl, rfl, by simp, rfl, (map_recordedBooks (by simp) _).symm⟩

/-! ### A whole request -/

/-- Does a success count a receiver? -/
def startsReceiving (code : Byte) : Prop := code = IG_DEV_RECVON ∨ code = IG_DEV_RAWRECVON

instance (code : Byte) : Decidable (startsReceiving code) := inferInstanceAs (Decidable (_ ∨ _))

theorem startsReceiving_iff {version : Option Version} {code : Byte} :
    finalCode version code = IG_DEV_RECVON ↔ startsReceiving code := by
  rw [finalCode, forwardedCode_recvOn, switchedCode, startsReceiving]
  split_ifs with h
  · simp [h]
  · simp [h]

/-- The code is translated back for a client whose version has it. -/
structure Translated (s s' : Session) (done ok : Bool) : Prop where
  target : s'.target = s.target
  books : s'.books = s.books
  done_of_ok : ok = true → done = true
  code : ok = true → translateProtocol s.request.code s.target.version true = some s'.request.code
  unknown : done = true → ok = false → translateProtocol s.request.code s.target.version true = none

theorem translateBack_translated (s : Session) (done : Bool) :
    Translated s (translateBack s done).1 done (translateBack s done).2 := by
  unfold translateBack
  split
  · next hnone => exact ⟨rfl, rfl, nofun, nofun, fun _ _ => hnone⟩
  · next hsome => exact ⟨rfl, rfl, id, fun _ => hsome, fun h h' => absurd (h.symm.trans h') nofun⟩

/-- What an accepted request does, where `done` says that it succeeds before its code is
translated back. -/
structure Accepted (s s' : Session) (done ok : Bool) : Prop where
  fd : s'.target.fd = s.target.fd
  mode : s'.target.receiving =
    if done = true ∧ startsReceiving s.request.code then IG_DEV_RECVON
    else switchedMode s.request.code s.target.receiving
  version : s.request.code ≠ IG_EXCH_VERSIONS → s'.target.version = s.target.version
  books : s'.books = s.books.map (fun books => recordedBooks
    (done = true ∧ startsReceiving s.request.code) (switchedBooks s.request.code books))
  done_of_ok : ok = true → done = true
  code : ok = true → translateProtocol (finalCode (s.device.map (·.idev.version)) s.request.code)
    s'.target.version true = some s'.request.code
  unknown : done = true → ok = false →
    translateProtocol (finalCode (s.device.map (·.idev.version)) s.request.code)
      s'.target.version true = none

/-- The result of the `switch` and, where that does not finish, of the device transaction. -/
def Completes (fl : ℚ → ℚ) (resetOk : Bool) (s : Session) (done : Bool) : Prop :=
  ∃ s₁ ok₁ s₂ response, switchRequest fl s = some (s₁, ok₁) ∧
    completeRequest fl resetOk s₁ ok₁ = some (s₂, done, response)

theorem acceptedRequest_spec {resetOk ok : Bool} {s s' : Session}
    (h : acceptedRequest fl resetOk s = some (s', ok)) :
    ∃ done, Completes fl resetOk s done ∧ Accepted s s' done ok := by
  simp only [acceptedRequest, Option.bind_eq_bind, Option.bind_eq_some_iff, Prod.exists] at h
  obtain ⟨s₁, ok₁, h₁, s₂, done, response, h₂, s₃, h₃, h₄⟩ := h
  have hsw := switchRequest_switched h₁
  have hfw := completeRequest_spec (switchRequest_pinConfig · h₁) h₂
  have hrec := recordSuccess_recorded h₃
  have htr := translateBack_translated s₃ done
  rw [Option.some.inj h₄] at htr
  have hcode (hdone : done = true) :
      s₃.request.code = finalCode (s.device.map (·.idev.version)) s.request.code := by
    rw [hrec.code, hfw.code hdone, hsw.code, hsw.device_version]
    rfl
  have hcounts : done = true ∧ s₂.request.code = IG_DEV_RECVON ↔
      done = true ∧ startsReceiving s.request.code := by
    refine and_congr_right fun hdone => ?_
    rw [← hrec.code, hcode hdone, startsReceiving_iff]
  refine ⟨done, ⟨s₁, ok₁, s₂, response, h₁, h₂⟩, ?_, ?_, fun hne => ?_, ?_, htr.done_of_ok,
    fun hok => ?_, fun hdone hok => ?_⟩
  · rw [htr.target, hrec.fd, hfw.target, hsw.fd]
  · rw [htr.target, hrec.mode, hfw.target, hsw.mode]
    simp only [hcounts]
  · rw [htr.target, hrec.version, hfw.target, hsw.version hne]
  · rw [htr.books, hrec.books, hfw.books, hsw.books, Option.map_map]
    rw [recordedBooks_congr hcounts]
    rfl
  · rw [htr.target, ← hcode (htr.done_of_ok hok)]
    exact htr.code hok
  · rw [htr.target, ← hcode hdone]
    exact htr.unknown hdone hok

/-- The daemon's own code of a request whose code is known and whose size is right. -/
def acceptedCode (s : Session) : Option Byte :=
  match translateProtocol s.request.code s.target.version false with
  | none => none
  | some code =>
      (checkIncomingProtocol (s.device.map (·.idev.version)) (s.setCode code).request false).map
        (fun _ => code)

theorem acceptedCode_some {s : Session} {code : Byte} (h : acceptedCode s = some code) :
    translateProtocol s.request.code s.target.version false = some code ∧
      ∃ type, checkIncomingProtocol (s.device.map (·.idev.version)) (s.setCode code).request false
        = some type := by
  unfold acceptedCode at h
  split at h
  · cases h
  · next hcode =>
      obtain ⟨type, hcheck, rfl⟩ := Option.map_eq_some_iff.mp h
      exact ⟨hcode, type, hcheck⟩

/-- **A request of a client** is refused, and then client and books are as they were, or it is
accepted. -/
theorem handleClientRequest_spec {resetOk ok : Bool} {s s' : Session}
    (h : handleClientRequest fl resetOk s = some (s', ok)) :
    (acceptedCode s = none ∧ ok = false ∧ s'.target = s.target ∧ s'.books = s.books) ∨
      ∃ code done, acceptedCode s = some code ∧ Completes fl resetOk (s.setCode code) done ∧
        Accepted (s.setCode code) s' done ok := by
  unfold handleClientRequest at h
  unfold acceptedCode
  cases hcode : translateProtocol s.request.code s.target.version false with
  | none =>
      simp only [hcode] at h
      obtain ⟨rfl, rfl⟩ := Prod.mk.inj (Option.some.inj h)
      exact .inl ⟨rfl, rfl, rfl, rfl⟩
  | some code =>
      simp only [hcode] at h ⊢
      cases hcheck : checkIncomingProtocol (s.device.map (·.idev.version)) (s.setCode code).request
          false with
      | none =>
          simp only [hcheck] at h
          obtain ⟨rfl, rfl⟩ := Prod.mk.inj (Option.some.inj h)
          exact .inl ⟨rfl, rfl, rfl, rfl⟩
      | some type =>
          simp only [hcheck] at h
          obtain ⟨done, hdone, hacc⟩ := acceptedRequest_spec h
          exact .inr ⟨code, done, rfl, hdone, hacc⟩

/-- The descriptor stays with the client. -/
theorem handleClientRequest_fd {resetOk ok : Bool} {s s' : Session}
    (h : handleClientRequest fl resetOk s = some (s', ok)) : s'.target.fd = s.target.fd := by
  obtain ⟨-, -, htarget, -⟩ | ⟨code, done, -, -, hacc⟩ := handleClientRequest_spec h
  · rw [htarget]
  · exact hacc.fd

end IguanaIR
