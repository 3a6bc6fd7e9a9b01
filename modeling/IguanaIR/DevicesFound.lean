import IguanaIR.DeviceList

/-! # Which attached devices a scan finds

A scan takes a device for known when an entry has its bus and its port.  The port is a number of
the device's hub, so that devices behind two hubs of one bus can have the same port; then only one
of them gets an entry. -/

namespace IguanaIR

def Supported (dev : LibusbDevice) : Prop := ∃ id ∈ usbIds, Matches dev id

/-- An entry was opened for the device. -/
def Represented (list : DeviceList) (dev : LibusbDevice) : Prop :=
  ∃ e ∈ list.entries, e.device = dev

/-- A device that the scan should find. -/
structure Unclaimed (list : DeviceList) (usbList : List LibusbDevice) (dev : LibusbDevice) :
    Prop where
  listed : dev ∈ usbList
  supported : Supported dev
  unrepresented : ¬Represented list dev

/-- Every such device has an entry that was not there, and was passed once to `startWorker`. -/
def NoneOverlooked (list : DeviceList) (usbList : List LibusbDevice) (list' : DeviceList)
    (calls : List StartCall) : Prop :=
  ∀ dev, Unclaimed list usbList dev →
    (∃ e ∈ list'.entries, e ∉ list.entries ∧ e.device = dev) ∧
      calls.countP (·.info.device = dev) = 1

/-- Opening, configuring and claiming succeed at once. -/
def ClaimResult.Succeeds (result : ClaimResult) : Prop :=
  result.opened = true ∧ result.attempts.head? = some .claimed

/-- The devices to be found are at locations of their own, and their workers start. -/
structure Apart (claims : LibusbDevice → UsbId → ClaimResult) (list : DeviceList)
    (usbList : List LibusbDevice) : Prop where
  entries : ∀ dev, Unclaimed list usbList dev → Vacant list dev
  devices : ∀ dev dev', Unclaimed list usbList dev → Unclaimed list usbList dev' → dev ≠ dev' →
    dev.location ≠ dev'.location
  started : ∀ dev, Unclaimed list usbList dev → ∀ id ∈ usbIds, Matches dev id →
    (claims dev id).started = true

section Scan

variable {claims : LibusbDevice → UsbId → ClaimResult} {list list' : DeviceList}
  {dev : LibusbDevice} {id : UsbId} {calls : List StartCall}

theorem ClaimResult.Succeeds.claimed {result : ClaimResult} (h : result.Succeeds) (force : Bool) :
    result.claimed force = some true := by
  rw [ClaimResult.claimed, if_pos h.1]
  cases hattempts : result.attempts with
  | nil =>
      have hhead := h.2
      rw [hattempts] at hhead
      cases hhead
  | cons attempt rest =>
      have hhead := h.2
      rw [hattempts] at hhead
      obtain rfl := Option.some.inj hhead
      rfl

/-- The entry of a represented device has its location. -/
theorem Represented.occupied (h : Represented list dev) (hlist : InOrder list) :
    ¬Vacant list dev := by
  obtain ⟨e, he, rfl⟩ := h
  intro hvacant
  apply hvacant e he
  obtain ⟨hbus, hport⟩ := hlist.located e he
  rw [UsbDevice.location, LibusbDevice.location, hbus, hport]

theorem examine_represented (hlist : InOrder list) (h : Represented list dev) :
    examine claims list (dev, id) = some (list, []) := by
  apply examine_skips hlist
  rintro ⟨-, hvacant, -⟩
  exact h.occupied hlist hvacant

/-- A device at a vacant location is started, and has an entry if its worker starts. -/
theorem examine_vacant (hlist : InOrder list) (hdescribe : list.describe = false)
    (hmatches : Matches dev id) (hvacant : Vacant list dev) (hsucceeds : (claims dev id).Succeeds) :
    ∃ before after newDev, Fits list dev before after newDev ∧
      examine claims list (dev, id) = some ((claims dev id).kept list before after newDev,
        [⟨newDev, before ++ newDev :: after⟩]) := by
  obtain ⟨before, after, newDev, hfits, hclaim⟩ := claimDevice_spec (claims dev id) id hlist hvacant
  refine ⟨before, after, newDev, hfits, ?_⟩
  rw [examine_claims hlist hmatches hvacant hdescribe, hclaim, hsucceeds.claimed]
  rfl

/-- Entries stay, and those that are new belong to devices whose workers started. -/
structure Grows (claims : LibusbDevice → UsbId → ClaimResult) (id : UsbId)
    (list list' : DeviceList) : Prop where
  stay : ∀ e ∈ list.entries, e ∈ list'.entries
  new : ∀ e ∈ list'.entries, e ∈ list.entries ∨ (claims e.device id).started = true

theorem examine_grows (hlist : InOrder list)
    (h : examine claims list (dev, id) = some (list', calls)) : Grows claims id list list' := by
  obtain ⟨rfl, -⟩ | ⟨before, after, newDev, hfits, rfl, -⟩ := examine_cases hlist h
  · exact ⟨fun _ he => he, fun _ he => .inl he⟩
  · unfold ClaimResult.kept
    cases hstarted : (claims dev id).started with
    | false => exact ⟨fun _ he => he, fun _ he => .inl he⟩
    | true =>
        simp only [if_true, DeviceList.insert]
        constructor
        · intro e he
          rw [hfits.split] at he
          simp only [List.mem_append, List.mem_cons] at he ⊢
          tauto
        · intro e he
          rw [hfits.split]
          simp only [List.mem_append, List.mem_cons] at he ⊢
          obtain hbefore | rfl | hafter := he
          · exact .inl (.inl hbefore)
          · rw [hfits.device]
            exact .inr hstarted
          · exact .inl (.inr hafter)

theorem scan_grows {usbList : List LibusbDevice} {os : List (List StartCall)}
    (hlist : InOrder list)
    (hrun : Transition.run (examine claims) list (usbList.map (·, id)) = some (list', os)) :
    Grows claims id list list' := by
  induction usbList generalizing list os with
  | nil =>
      obtain ⟨rfl, -⟩ := Prod.mk.inj (Option.some.inj hrun)
      exact ⟨fun _ he => he, fun _ he => .inl he⟩
  | cons dev usbList ih =>
      obtain ⟨list₁, calls, os, hfirst, hrest, rfl⟩ := Transition.run_cons hrun
      have hgrows := examine_grows hlist hfirst
      have hrest := ih (examine_scanned hlist hfirst).inOrder hrest
      constructor
      · exact fun e he => hrest.stay e (hgrows.stay e he)
      · intro e he
        obtain hmiddle | hstarted := hrest.new e he
        · exact hgrows.new e hmiddle
        · exact .inr hstarted

/-- A device that has an entry is not started again. -/
theorem represented_uncalled {usbList : List LibusbDevice} {os : List (List StartCall)}
    (hlist : InOrder list) (h : Represented list dev)
    (hrun : Transition.run (examine claims) list (usbList.map (·, id)) = some (list', os)) :
    os.flatten.countP (·.info.device = dev) = 0 := by
  induction usbList generalizing list os with
  | nil =>
      obtain ⟨-, rfl⟩ := Prod.mk.inj (Option.some.inj hrun)
      rfl
  | cons examined usbList ih =>
      obtain ⟨list₁, calls, os, hfirst, hrest, rfl⟩ := Transition.run_cons hrun
      obtain ⟨e, he, hdevice⟩ := h
      have hrest := ih (examine_scanned hlist hfirst).inOrder
        ⟨e, (examine_grows hlist hfirst).stay e he, hdevice⟩ hrest
      rw [List.flatten_cons, List.countP_append, hrest, Nat.add_zero]
      by_cases heq : examined = dev
      · rw [heq, examine_represented hlist ⟨e, he, hdevice⟩] at hfirst
        obtain ⟨-, rfl⟩ := Prod.mk.inj (Option.some.inj hfirst)
        rfl
      · obtain ⟨-, rfl⟩ | ⟨before, after, newDev, hfits, -, rfl⟩ := examine_cases hlist hfirst
        · rfl
        · simp [hfits.device, heq]

/-- The only id of the table. -/
theorem supported_iff : Supported dev ↔ Matches dev ⟨0x1781, 0x0938⟩ := by
  simp [Supported, usbIds]

theorem product_usbIds (usbList : List LibusbDevice) :
    usbList.product usbIds = usbList.map (·, ⟨0x1781, 0x0938⟩) := by
  rw [List.product, usbIds, List.map_eq_flatMap]
  rfl

theorem Unclaimed.cons {usbList : List LibusbDevice} {first : LibusbDevice}
    (h : Unclaimed list usbList dev) : Unclaimed list (first :: usbList) dev :=
  ⟨List.mem_cons_of_mem _ h.listed, h.supported, h.unrepresented⟩

/-- A device that is not to be found is passed over. -/
theorem examine_claimed {usbList : List LibusbDevice} {first : LibusbDevice}
    (hlist : InOrder list) (h : ¬Unclaimed list (first :: usbList) first) :
    examine claims list (first, ⟨0x1781, 0x0938⟩) = some (list, []) := by
  by_cases hrepresented : Represented list first
  · exact examine_represented hlist hrepresented
  · apply examine_skips hlist
    rintro ⟨hmatches, -, -⟩
    exact h ⟨List.mem_cons_self .., supported_iff.mpr hmatches, hrepresented⟩

/-- Who is to be found behind the new entry of `first`. -/
theorem unclaimed_insert {usbList : List LibusbDevice} {first : LibusbDevice} {newDev : UsbDevice}
    {before after : List UsbDevice} (hfits : Fits list first before after newDev) :
    Unclaimed (list.insert before after newDev) usbList dev ↔
      Unclaimed list usbList dev ∧ dev ≠ first := by
  have hrepresented : Represented (list.insert before after newDev) dev ↔
      Represented list dev ∨ dev = first := by
    simp only [Represented, DeviceList.insert, hfits.split, List.mem_append, List.mem_cons]
    constructor
    · rintro ⟨e, hbefore | rfl | hafter, heq⟩
      · exact .inl ⟨e, .inl hbefore, heq⟩
      · exact .inr (heq.symm.trans hfits.device)
      · exact .inl ⟨e, .inr hafter, heq⟩
    · rintro (⟨e, hbefore | hafter, heq⟩ | rfl)
      · exact ⟨e, .inl hbefore, heq⟩
      · exact ⟨e, .inr (.inr hafter), heq⟩
      · exact ⟨newDev, .inr (.inl rfl), hfits.device⟩
  constructor
  · intro h
    have hnot := not_or.mp (mt hrepresented.mpr h.unrepresented)
    exact ⟨⟨h.listed, h.supported, hnot.1⟩, hnot.2⟩
  · rintro ⟨h, hne⟩
    exact ⟨h.listed, h.supported, fun hr => (hrepresented.mp hr).elim h.unrepresented hne⟩

/-- Behind a device that has an entry now, the rest of the list is as it was. -/
theorem Apart.tail {usbList : List LibusbDevice} {newDev : UsbDevice}
    {before after : List UsbDevice} (h : Apart claims list (dev :: usbList))
    (hdev : Unclaimed list (dev :: usbList) dev) (hfits : Fits list dev before after newDev) :
    Apart claims (list.insert before after newDev) usbList := by
  have hold : ∀ dev', Unclaimed (list.insert before after newDev) usbList dev' →
      Unclaimed list (dev :: usbList) dev' ∧ dev' ≠ dev := by
    intro dev' hdev'
    obtain ⟨hunclaimed, hne⟩ := (unclaimed_insert hfits).mp hdev'
    exact ⟨hunclaimed.cons, hne⟩
  refine ⟨?_, ?_, ?_⟩
  · intro dev' hdev' e he
    obtain ⟨hunclaimed, hne⟩ := hold dev' hdev'
    simp only [DeviceList.insert, List.mem_append, List.mem_cons] at he
    have hvacant := h.entries dev' hunclaimed
    rw [Vacant, hfits.split] at hvacant
    obtain hbefore | rfl | hafter := he
    · exact hvacant e (List.mem_append_left _ hbefore)
    · rw [UsbDevice.location, hfits.bus, hfits.port]
      exact h.devices dev dev' hdev hunclaimed (Ne.symm hne)
    · exact hvacant e (List.mem_append_right _ hafter)
  · intro dev₁ dev₂ h₁ h₂
    exact h.devices dev₁ dev₂ (hold dev₁ h₁).1 (hold dev₂ h₂).1
  · intro dev' hdev'
    exact h.started dev' (hold dev' hdev').1

end Scan

/-- **Devices that are apart are found.** -/
theorem apart_found {claims : LibusbDevice → UsbId → ClaimResult} {list list' : DeviceList}
    {usbList : List LibusbDevice} {os : List (List StartCall)} (hlist : InOrder list)
    (hdescribe : list.describe = false)
    (hsucceeds : ∀ dev ∈ usbList, ∀ id ∈ usbIds, (claims dev id).Succeeds)
    (hapart : Apart claims list usbList)
    (hrun : Transition.run (examine claims) list (usbList.map (·, ⟨0x1781, 0x0938⟩)) =
      some (list', os)) :
    NoneOverlooked list usbList list' os.flatten := by
  induction usbList generalizing list os with
  | nil => exact fun dev hdev => absurd hdev.listed List.not_mem_nil
  | cons first usbList ih =>
      obtain ⟨list₁, calls, os, hfirst, hrest, rfl⟩ := Transition.run_cons hrun
      have hlist₁ := (examine_scanned hlist hfirst).inOrder
      have hsucceeds' : ∀ dev ∈ usbList, ∀ id ∈ usbIds, (claims dev id).Succeeds :=
        fun dev hdev => hsucceeds dev (List.mem_cons_of_mem _ hdev)
      by_cases hnew : Unclaimed list (first :: usbList) first
      · have hmatches := supported_iff.mp hnew.supported
        have hid : (⟨0x1781, 0x0938⟩ : UsbId) ∈ usbIds := List.mem_singleton_self _
        obtain ⟨before, after, newDev, hfits, hexamine⟩ := examine_vacant hlist hdescribe hmatches
          (hapart.entries first hnew) (hsucceeds first (List.mem_cons_self ..) _ hid)
        rw [hexamine, ClaimResult.kept, if_pos (hapart.started first hnew _ hid hmatches)] at hfirst
        obtain ⟨rfl, rfl⟩ := Prod.mk.inj (Option.some.inj hfirst)
        have htail := ih hlist₁ hdescribe hsucceeds' (hapart.tail hnew hfits) hrest
        have hgrows := scan_grows hlist₁ hrest
        have hmem : newDev ∈ (list.insert before after newDev).entries := by
          simp [DeviceList.insert]
        intro dev hdev
        rw [List.flatten_cons, List.countP_append]
        by_cases heq : dev = first
        · rw [heq]
          have hrepresented : Represented (list.insert before after newDev) first :=
            ⟨newDev, hmem, hfits.device⟩
          rw [represented_uncalled hlist₁ hrepresented hrest]
          refine ⟨⟨newDev, hgrows.stay newDev hmem, ?_, hfits.device⟩, ?_⟩
          · rw [hfits.split]
            exact hfits.notMem
          · simp [hfits.device]
        · have hlisted := (List.mem_cons.mp hdev.listed).resolve_left heq
          obtain ⟨⟨e, he, hnot, hdevice⟩, hcount⟩ := htail dev
            ((unclaimed_insert hfits).mpr ⟨⟨hlisted, hdev.supported, hdev.unrepresented⟩, heq⟩)
          refine ⟨⟨e, he, ?_, hdevice⟩, ?_⟩
          · intro hold
            rw [hfits.split] at hold
            apply hnot
            simp only [DeviceList.insert, List.mem_append, List.mem_cons] at hold ⊢
            tauto
          · rw [hcount]
            simp [hfits.device, Ne.symm heq]
      · rw [examine_claimed hlist hnew] at hfirst
        obtain ⟨rfl, rfl⟩ := Prod.mk.inj (Option.some.inj hfirst)
        have hapart' : Apart claims list usbList :=
          ⟨fun dev hdev => hapart.entries dev hdev.cons,
            fun dev dev' hdev hdev' => hapart.devices dev dev' hdev.cons hdev'.cons,
            fun dev hdev => hapart.started dev hdev.cons⟩
        intro dev hdev
        have hne : dev ≠ first := fun heq => hnew (heq ▸ hdev)
        have hlisted := (List.mem_cons.mp hdev.listed).resolve_left hne
        exact ih hlist hdescribe hsucceeds' hapart' hrest dev
          ⟨hlisted, hdev.supported, hdev.unrepresented⟩

/-- **What is found is apart**: the entries are at different locations, and their workers
started. -/
theorem found_apart {claims : LibusbDevice → UsbId → ClaimResult} {list list' : DeviceList}
    {usbList : List LibusbDevice} {calls : List StartCall} (hlist' : InOrder list')
    (hgrows : Grows claims ⟨0x1781, 0x0938⟩ list list')
    (h : NoneOverlooked list usbList list' calls) : Apart claims list usbList := by
  have hlocated : ∀ e ∈ list'.entries, e.location = e.device.location := by
    intro e he
    obtain ⟨hbus, hport⟩ := hlist'.located e he
    rw [UsbDevice.location, LibusbDevice.location, hbus, hport]
  have hunique : ∀ e ∈ list'.entries, ∀ e' ∈ list'.entries, e.location = e'.location → e = e' :=
    fun _ he _ he' heq => List.inj_on_of_nodup_map (locations_nodup hlist'.sorted) he he' heq
  refine ⟨?_, ?_, ?_⟩
  · intro dev hdev e he heq
    obtain ⟨⟨new, hnew, hnot, rfl⟩, -⟩ := h dev hdev
    have hsame := hunique e (hgrows.stay e he) new hnew (heq.trans (hlocated new hnew).symm)
    exact hnot (hsame ▸ he)
  · intro dev dev' hdev hdev' hne heq
    obtain ⟨⟨e, he, -, rfl⟩, -⟩ := h dev hdev
    obtain ⟨⟨e', he', -, rfl⟩, -⟩ := h dev' hdev'
    rw [← hlocated e he, ← hlocated e' he'] at heq
    exact hne (congrArg UsbDevice.device (hunique e he e' he' heq))
  · intro dev hdev id hid _
    obtain ⟨⟨e, he, hnot, rfl⟩, -⟩ := h dev hdev
    rw [List.mem_singleton.mp hid]
    exact (hgrows.new e he).resolve_left hnot

/-- **No attached device is overlooked** by a scan whose calls succeed if and only if the devices
to be found have locations of their own, which no entry has, and their workers start. -/
theorem none_overlooked_iff {force : Bool} {es : List DeviceEvent} {list list' : DeviceList}
    {os : List (List StartCall)} {claims : LibusbDevice → UsbId → ClaimResult}
    {usbList : List LibusbDevice} {calls : List StartCall}
    (hrun : Transition.run deviceStep (.prepared usbIds true force) es = some (list, os))
    (hsucceeds : ∀ dev ∈ usbList, ∀ id ∈ usbIds, (claims dev id).Succeeds)
    (h : updateDeviceList claims usbList list = some (list', calls)) :
    NoneOverlooked list usbList list' calls ↔ Apart claims list usbList := by
  have hreached := run_scanned (fun _ _ _ _ => deviceStep_scanned) (.prepared usbIds true force)
    hrun
  have hlist := hreached.inOrder
  have hlist' := (updateDeviceList_scanned hlist h).inOrder
  obtain ⟨⟨list₁, calls'⟩, hscan, hresult⟩ := Option.map_eq_some_iff.mp h
  obtain ⟨rfl, rfl⟩ := Prod.mk.inj hresult
  rw [hreached.ids] at hscan
  change Transition.run (examine claims) list (usbList.product usbIds) = _ at hscan
  rw [product_usbIds] at hscan
  constructor
  · exact found_apart hlist' (scan_grows hlist hscan)
  · exact fun hapart => apart_found hlist hreached.describe hsucceeds hapart hscan

/-- A device is plugged in behind another hub, at another port than the two that have entries. -/
theorem none_overlooked_iff_hub : ∃ list os list' calls,
    Transition.run deviceStep (.prepared usbIds true false) replugged = some (list, os) ∧
    updateDeviceList claimsAll [transceiver 2 6, transceiver 3 7, transceiver 1 9] list =
      some (list', calls) ∧ list'.entries.length = 3 ∧
    (NoneOverlooked list [transceiver 2 6, transceiver 3 7, transceiver 1 9] list' calls ↔
      Apart claimsAll list [transceiver 2 6, transceiver 3 7, transceiver 1 9]) := by
  have hend : ((Transition.run deviceStep (.prepared usbIds true false) replugged).bind (fun r =>
      (updateDeviceList claimsAll [transceiver 2 6, transceiver 3 7, transceiver 1 9] r.1).map
        (fun r => r.1.entries.length))) = some 3 := by decide
  obtain ⟨⟨list, os⟩, hrun, hscan⟩ := Option.bind_eq_some_iff.mp hend
  obtain ⟨⟨list', calls⟩, h, hlength⟩ := Option.map_eq_some_iff.mp hscan
  have hsucceeds : ∀ dev ∈ [transceiver 2 6, transceiver 3 7, transceiver 1 9], ∀ id ∈ usbIds,
      (claimsAll dev id).Succeeds := fun _ _ _ _ => ⟨rfl, rfl⟩
  exact ⟨list, os, list', calls, hrun, h, hlength, none_overlooked_iff hrun hsucceeds h⟩

/-- Two devices at port 2 of two hubs of one bus: the second gets no entry. -/
theorem device_overlooked : ∃ list' calls,
    updateDeviceList claimsAll [transceiver 2 5, transceiver 2 9] (.prepared usbIds true false) =
      some (list', calls) ∧
    ¬NoneOverlooked (.prepared usbIds true false) [transceiver 2 5, transceiver 2 9] list'
      calls := by
  have hend : (updateDeviceList claimsAll [transceiver 2 5, transceiver 2 9]
      (.prepared usbIds true false)).map (fun r => r.1.entries.map UsbDevice.device) =
        some [transceiver 2 5] := by decide
  obtain ⟨⟨list', calls⟩, h, hentries⟩ := Option.map_eq_some_iff.mp hend
  refine ⟨list', calls, h, ?_⟩
  intro hfound
  have hsecond : Unclaimed (.prepared usbIds true false) [transceiver 2 5, transceiver 2 9]
      (transceiver 2 9) := by
    refine ⟨by decide, supported_iff.mpr (by decide), ?_⟩
    rintro ⟨e, he, -⟩
    cases he
  obtain ⟨⟨e, he, -, heq⟩, -⟩ := hfound _ hsecond
  have hmem : transceiver 2 9 ∈ list'.entries.map UsbDevice.device :=
    heq ▸ List.mem_map_of_mem he
  rw [hentries] at hmem
  exact absurd hmem (by decide)

end IguanaIR
