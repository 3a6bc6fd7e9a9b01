import IguanaIR.PayloadCheck

/-! # The ctl socket

Clients of the ctl socket have no device.  What keeps their requests away from `target->idev` is
the table of packet types, read with the version of the protocol in place of that of a device:
the rows from version 0 on that have no last version hold for the ctl socket as well, and so seven
requests that the `switch` handles through the device come in.

In the model a request that goes through the `NULL` is undefined, like one that reads through a
`NULL` in its data or in the names of the devices. -/

namespace IguanaIR

variable {fl : ℚ → ℚ}

/-! ### What is to hold -/

/-- The requests that are answered inside the daemon without a device. -/
def daemonCodes : List Byte :=
  [IG_EXCH_VERSIONS, IG_CTL_LISTDEVS, IG_CTL_DEVADDR, IG_DEV_IDSOFF, IG_DEV_IDSON, IG_DEV_IDSTATE]

/-- The request returns: it is answered inside the daemon or refused, and there is neither a device
that it changes, nor does it change the list of them. -/
def Isolated (fl : ℚ → ℚ) (resetOk : Bool) (s : Session) : Prop :=
  ∃ s' ok, handleClientRequest fl resetOk s = some (s', ok) ∧ s'.device = none ∧
    s'.server.devs = s.server.devs ∧ (ok = true → ∃ code ∈ acceptedCode s, code ∈ daemonCodes)

/-- The requests for a device that the ctl socket accepts. -/
def leakedCodes : List Byte :=
  [IG_DEV_SEND, IG_DEV_LISTALIASES, IG_DEV_GETADDRESS, IG_DEV_SENDSIZE, IG_DEV_RECVON,
    IG_DEV_RECVOFF, IG_DEV_GETLOCATION]

/-- Every device that is looked at for its address, up to the one that is meant, has a location
alias. -/
def Addressable (name : CString) : List Names → Prop
  | [] => True
  | idev :: devs => socketName (decimal idev.id) = name ∨
      (idev.locAlias.isSome = true ∧ (findAddress name idev = some false → Addressable name devs))

instance decidableAddressable (name : CString) : ∀ devs, Decidable (Addressable name devs)
  | [] => isTrue trivial
  | _ :: devs =>
      have : Decidable (Addressable name devs) := decidableAddressable name devs
      inferInstanceAs (Decidable (_ ∨ (_ ∧ (_ → _))))

/-- The name in the data of a request, up to its first null. -/
def aliasName (data : Option (List Byte)) : CString := (data.getD []).takeWhile (· ≠ 0)

/-- A request that needs no device, and that has the data it is read from. -/
def CtlSafe (s : Session) : Prop :=
  ∀ code ∈ acceptedCode s, code ∉ leakedCodes ∧
    (code = IG_EXCH_VERSIONS → 0 < s.request.dataLen) ∧
    (code = IG_CTL_DEVADDR → 0 ≤ s.request.dataLen ∧
      Addressable (aliasName s.request.data) s.server.devs)

instance (s : Session) : Decidable (CtlSafe s) :=
  inferInstanceAs (Decidable (∀ code ∈ acceptedCode s, _ ∧ (_ → _) ∧ (_ → _ ∧ _)))

/-! ### The requests of the daemon -/

/-- What `cString` finds in front of a null. -/
theorem cString_append_zero : ∀ bytes : List Byte,
    cString (bytes ++ [0]) = some (bytes.takeWhile (· ≠ 0))
  | [] => rfl
  | b :: rest => by
      rw [List.cons_append, cString]
      by_cases hb : b = 0
      · simp [hb]
      · rw [if_neg hb, cString_append_zero rest, List.takeWhile_cons_of_pos (by simpa using hb)]
        rfl

theorem findAddress_isSome (name : CString) (idev : Names) :
    (findAddress name idev).isSome = true ↔
      socketName (decimal idev.id) = name ∨ idev.locAlias.isSome = true := by
  unfold findAddress
  by_cases hid : socketName (decimal idev.id) = name
  · simp [hid]
  · rw [if_neg hid]
    cases idev.locAlias with
    | none => simp [hid]
    | some locAlias =>
        simp only [Option.isSome_some, or_true, iff_true]
        split_ifs
        · rfl
        · cases idev.userAlias <;> rfl

theorem deviceAddress_isSome (name : CString) : ∀ devs : List Names,
    (deviceAddress name devs).isSome = true ↔ Addressable name devs
  | [] => by simp [deviceAddress, Addressable]
  | idev :: devs => by
      have hfind := findAddress_isSome name idev
      have ih := deviceAddress_isSome name devs
      unfold deviceAddress Addressable
      cases hfound : findAddress name idev with
      | none =>
          rw [hfound] at hfind
          simp only [Option.isSome_none, Bool.false_eq_true, false_iff] at hfind ⊢
          intro h
          cases h with
          | inl hid => exact hfind (.inl hid)
          | inr hloc => exact hfind (.inr hloc.1)
      | some found =>
          rw [hfound] at hfind
          have hsome := hfind.mp rfl
          cases found with
          | true =>
              simp only [Option.isSome_some, true_iff]
              exact hsome.imp_right (fun hloc => ⟨hloc, nofun⟩)
          | false =>
              simp only [forall_true_left]
              have hother : ¬socketName (decimal idev.id) = name := by
                intro hid
                rw [findAddress, if_pos hid] at hfound
                cases hfound
              rw [ih]
              exact ⟨fun h => .inr ⟨hsome.resolve_left hother, h⟩,
                fun h => (h.resolve_left hother).2⟩

/-- The address is looked up for a length that is not negative. -/
theorem ctlDevAddr_isSome {s : Session} (hfilled : s.request.Filled) :
    (ctlDevAddr s).isSome = true ↔
      0 ≤ s.request.dataLen ∧ Addressable (aliasName s.request.data) s.server.devs := by
  unfold ctlDevAddr
  simp only [Option.bind_eq_bind]
  by_cases hneg : s.request.dataLen < 0
  · have hread : readBytes s.request.data s.request.dataLen = none := if_pos hneg
    rw [hread, Option.bind_none]
    simp only [Option.isSome_none, Bool.false_eq_true, false_iff]
    intro h
    omega
  · have hread : readBytes s.request.data s.request.dataLen = some (s.request.data.getD []) := by
      unfold DataPacket.Filled at hfilled
      split_ifs at hfilled with hzero
      · have hlen : s.request.dataLen = 0 := by omega
        rw [hlen, readBytes_zero, hfilled]
        rfl
      · obtain ⟨bytes, hdata, hlen⟩ := hfilled
        rw [hdata, ← hlen, readBytes_some (Nat.le_refl _), List.take_length]
        rfl
    rw [hread, Option.bind_some, cString_append_zero, Option.bind_some, ← deviceAddress_isSome]
    unfold aliasName
    cases deviceAddress ((s.request.data.getD []).takeWhile (· ≠ 0)) s.server.devs with
    | none => simp
    | some address =>
        simp only [Option.bind_some, Option.isSome_some, and_true, true_iff]
        omega

/-- The version is read when it is there: a length that passes for 2 is at least 2, or negative. -/
theorem exchVersions_isSome {s : Session} {type : PacketType} {version : Option Version}
    (hfilled : s.request.Filled) (hcode : s.request.code = IG_EXCH_VERSIONS)
    (hcheck : checkIncomingProtocol version s.request false = some type) :
    (exchVersions s).isSome = true ↔ 0 < s.request.dataLen := by
  obtain ⟨hfind, -, hmatch⟩ := checkIncomingProtocol_some hcheck
  obtain ⟨htype, t, ht, rfl⟩ := findTypeEntry_some hfind
  have hsize := (types_fixedSizes t ht).1 (htype.trans hcode)
  rw [payloadMatch_iff (findTypeEntry_outData_le hfind), hsize] at hmatch
  unfold NO_PAYLOAD ANY_PAYLOAD at hmatch
  unfold exchVersions
  simp only [Option.bind_eq_bind]
  unfold DataPacket.Filled at hfilled
  split_ifs at hfilled with hzero
  · have hread : readBytes s.request.data 2 = none := by
      rw [hfilled]
      rfl
    rw [hread, Option.bind_none]
    simp only [Option.isSome_none, Bool.false_eq_true, false_iff]
    omega
  · obtain ⟨bytes, hdata, hlen⟩ := hfilled
    have hread : readBytes s.request.data 2 = some (bytes.take 2) := by
      rw [hdata]
      exact readBytes_some (n := 2) (by omega)
    rw [hread, Option.bind_some]
    simp only [Option.isSome_some, true_iff]
    omega

/-! ### The switch -/

/-- Without a device the `switch` handles what needs none, if it has its data. -/
theorem switchRequest_isSome {s : Session} (hd : s.device = none) :
    (switchRequest fl s).isSome = true ↔ needsDevice s.request.code = false ∧
      (s.request.code = IG_EXCH_VERSIONS → (exchVersions s).isSome = true) ∧
      (s.request.code = IG_CTL_DEVADDR → (ctlDevAddr s).isSome = true) := by
  unfold switchRequest
  dsimp only
  by_cases hneeds : needsDevice s.request.code = true
  · simp [hneeds, hd]
  rw [if_neg hneeds]
  by_cases hexch : s.request.code = IG_EXCH_VERSIONS
  · have haddr : s.request.code ≠ IG_CTL_DEVADDR := by
      rw [hexch]
      decide
    simp [hexch, show needsDevice IG_EXCH_VERSIONS = false by decide,
      show ¬IG_EXCH_VERSIONS = IG_CTL_DEVADDR by decide]
  rw [if_neg hexch]
  by_cases haddr : s.request.code = IG_CTL_DEVADDR
  · simp [haddr, show needsDevice IG_CTL_DEVADDR = false by decide,
      show ¬IG_CTL_DEVADDR = IG_CTL_LISTDEVS by decide,
      show ¬IG_CTL_DEVADDR = IG_EXCH_VERSIONS by decide]
  · simp only [if_neg haddr, Bool.not_eq_true] at hneeds ⊢
    simp only [hneeds, hexch, haddr, IsEmpty.forall_iff, and_self, iff_true]
    split_ifs <;> rfl

/-- What it handles is neither for a device nor changes one. -/
theorem switchRequest_ctl {s s' : Session} {ok : Bool} (hd : s.device = none)
    (h : switchRequest fl s = some (s', ok)) :
    s'.device = none ∧ s'.server.devs = s.server.devs ∧ s'.request.code = s.request.code ∧
      (ok = true → s.request.code ∈ daemonCodes) := by
  have hneeds : needsDevice s.request.code = false := by
    by_contra hneeds
    obtain ⟨d, hsome, -⟩ := switchRequest_device (by simpa using hneeds) h
    exact absurd (hd.symm.trans hsome) (by simp)
  have hdevice {d : Device} (hsome : s.device = some d) : False := by
    cases hd.symm.trans hsome
  cases switchRequest_cases h with
  | exchVersions version hcode => exact ⟨hd, rfl, rfl, fun _ => by rw [hcode]; decide⟩
  | readLabels readLabels hcode =>
      refine ⟨hd, rfl, rfl, fun _ => ?_⟩
      rcases hcode with hcode | hcode <;>
      · rw [hcode]
        decide
  | reply bytes hcode =>
      have hmem : ∀ code ∈ [IG_DEV_GETCARRIER, IG_DEV_GETLOCATION, IG_DEV_SENDSIZE, IG_DEV_IDSTATE],
        needsDevice code = false → code ∈ daemonCodes := by decide
      exact ⟨hd, rfl, rfl, fun _ => hmem _ hcode hneeds⟩
  | replyString string hcode =>
      have hmem : ∀ code ∈ [IG_DEV_LISTALIASES, IG_DEV_GETADDRESS, IG_CTL_LISTDEVS, IG_CTL_DEVADDR],
        needsDevice code = false → code ∈ daemonCodes := by decide
      refine ⟨?_, ?_, ?_, fun _ => hmem _ hcode hneeds⟩
      all_goals cases string <;> first | exact hd | rfl
  | forward _ => exact ⟨hd, rfl, rfl, fun h => absurd h Bool.false_ne_true⟩
  | getFeatures hsome | recvOn hsome | recvOff hsome | getChannels _ hsome | setChannels _ hsome
  | setCarrier _ hsome | send _ _ hsome => exact (hdevice hsome).elim

/-- Behind the `switch` nothing more is read: what it did not answer is refused. -/
theorem acceptedRequest_ctl {resetOk ok : Bool} {s s₁ : Session} (hd : s.device = none)
    (h : switchRequest fl s = some (s₁, ok)) :
    ∃ s' ok', acceptedRequest fl resetOk s = some (s', ok') ∧ s'.device = none ∧
      s'.server.devs = s.server.devs ∧ (ok' = true → s.request.code ∈ daemonCodes) := by
  obtain ⟨hd₁, hdevs, hcode, hok⟩ := switchRequest_ctl hd h
  have hcomplete : completeRequest fl resetOk s₁ ok = some (s₁, ok, none) := by
    cases ok with
    | true => rfl
    | false => simp only [completeRequest, forwardRequest, hd₁, Bool.false_eq_true, if_false]
  have hrecord : recordSuccess s₁ ok none = some s₁ := by
    cases ok with
    | false => rfl
    | true =>
        have hother : s₁.request.code ≠ IG_DEV_RECVON := by
          intro hon
          have hmem := hok rfl
          rw [← hcode, hon] at hmem
          exact absurd hmem (by decide)
        simp only [recordSuccess, countReceiver, if_true, if_neg hother, Option.map_some,
          packResponse]
  refine ⟨(translateBack s₁ ok).1, (translateBack s₁ ok).2, ?_, ?_⟩
  · simp only [acceptedRequest, h, hcomplete, hrecord, Option.bind_eq_bind, Option.bind_some]
  · unfold translateBack
    cases translateProtocol s₁.request.code s₁.target.version true with
    | none => exact ⟨hd₁, hdevs, fun h => absurd h Bool.false_ne_true⟩
    | some code => exact ⟨hd₁, hdevs, hok⟩

/-! ### The gate -/

/-- The rows of the table that hold for the ctl socket and lead to the device. -/
theorem needsDevice_of_types : ∀ t ∈ types, t.covers t.type.code IG_PROTOCOL_VERSION = true →
    (needsDevice t.type.code = true ↔ t.type.code ∈ leakedCodes) :=
  List.all_iff_forall_prop.mp (by decide)

/-- Of the requests that the ctl socket accepts these go through the device. -/
theorem needsDevice_iff {code : Byte} {type : PacketType}
    (h : findTypeEntry code IG_PROTOCOL_VERSION = some type) :
    needsDevice code = true ↔ code ∈ leakedCodes := by
  simp only [findTypeEntry, Option.map_eq_some_iff] at h
  obtain ⟨t, ht, -⟩ := h
  have hcovers := List.find?_some ht
  have hcode : t.type.code = code := by
    simp only [VersionedType.covers, Bool.and_eq_true, beq_iff_eq] at hcovers
    exact hcovers.1.1
  rw [← hcode] at hcovers ⊢
  exact needsDevice_of_types t (List.mem_of_find?_eq_some ht) hcovers

/-- A client of the ctl socket that asks to receive. -/
def ctlSession (code : Byte) : Session :=
  ⟨⟨true, [⟨0, ascii "0", some (ascii "1-2"), none⟩]⟩, none, ⟨3, 0, IG_PROTOCOL_VERSION⟩,
    ⟨code, 0, none⟩⟩

end IguanaIR
