import IguanaIR.DirectoryInvariant

/-! # Aliases and the devices they reach

`deviceAddress` takes the first device that a path could mean, the directory the last one that has
linked it.  As long as no two devices could be meant they agree in every order of the workers'
steps; otherwise there is an order in which they do not (`agrees_iff`). -/

namespace IguanaIR

/-! ### What a path could mean -/

/-- The worker of a registered device. -/
def Registration.worker (d : Registration) : DeviceWorker :=
  ⟨⟨d.id, socketName (decimal d.id), some (locationAlias d.location), d.label⟩, d.location, .listening⟩

/-- `findAddress` takes the device. -/
def Registration.Meant (d : Registration) (path : CString) : Prop :=
  path = socketName (decimal d.id) ∨ path = socketName (locationAlias d.location) ∨
    ∃ label ∈ d.label, path = label ∨ path = socketName label

def Registration.Named (d : Registration) (name : CString) : Prop :=
  name = decimal d.id ∨ name = locationAlias d.location ∨ d.label = some name

theorem Registration.meant_label {d : Registration} {label : CString} (h : d.label = some label) :
    d.Meant (socketName label) :=
  .inr (.inr ⟨label, h, .inr rfl⟩)

theorem slash_mem_path (name : CString) : 0x2F ∈ IGSOCK_NAME ++ name :=
  List.mem_append_left _ (by decide)

theorem slash_mem_socketName (name : CString) : 0x2F ∈ socketName name := by
  by_cases h : 0x2F ∈ name
  · rw [socketName_slash h]
    exact h
  · rw [socketName_eq h]
    exact slash_mem_path name

theorem findAddress_worker {path : CString} (hpath : 0x2F ∈ path) (d : Registration) :
    (d.Meant path → findAddress path d.worker.names = some true) ∧
      (¬d.Meant path → findAddress path d.worker.names = some false) := by
  have hlocation : locationAlias d.location ≠ path := by
    rintro rfl
    exact slash_notMem_locationAlias _ hpath
  have hlabel : (∃ label ∈ d.label, path = label ∨ path = socketName label) ↔
      ∃ label, d.label = some label ∧ (label = path ∨ socketName label = path) := by
    simp only [Option.mem_def, eq_comm]
  unfold Registration.Meant findAddress Registration.worker
  dsimp only
  rw [hlabel]
  cases hd : d.label with
  | none =>
      constructor
      · rintro (rfl | rfl | ⟨label, hsome, -⟩)
        · exact if_pos rfl
        · simp
        · cases hsome
      · intro hnot
        push Not at hnot
        rw [if_neg (fun h => hnot.1 h.symm),
          if_neg (fun h => h.elim hlocation (fun h => hnot.2.1 h.symm))]
  | some label =>
      constructor
      · rintro (rfl | rfl | ⟨label', hsome, hmeant⟩)
        · exact if_pos rfl
        · simp
        · obtain rfl := Option.some.inj hsome
          simp [hmeant]
      · intro hnot
        push Not at hnot
        rw [if_neg (fun h => hnot.1 h.symm),
          if_neg (fun h => h.elim hlocation (fun h => hnot.2.1 h.symm))]
        have := hnot.2.2 label rfl
        simp [this.1, this.2]

/-- The first device that is meant. -/
theorem deviceAddress_cons {path : CString} (hpath : 0x2F ∈ path) {d : Registration}
    (hmeant : d.Meant path) (devices : List Registration) :
    deviceAddress path ((d :: devices).map (·.worker.names)) =
      some (some (socketName (decimal d.id))) := by
  rw [List.map_cons, deviceAddress, (findAddress_worker hpath d).1 hmeant]
  rfl

theorem deviceAddress_none {path : CString} (hpath : 0x2F ∈ path) {devices : List Registration}
    (hnone : ∀ d ∈ devices, ¬d.Meant path) :
    deviceAddress path (devices.map (·.worker.names)) = some none := by
  induction devices with
  | nil => rfl
  | cons e devices ih =>
      rw [List.forall_mem_cons] at hnone
      rw [List.map_cons, deviceAddress, (findAddress_worker hpath e).2 hnone.1]
      exact ih hnone.2

theorem deviceAddress_only {path : CString} (hpath : 0x2F ∈ path) {devices : List Registration}
    {d : Registration} (hd : d ∈ devices) (hmeant : d.Meant path)
    (honly : ∀ e ∈ devices, e.Meant path → e = d) :
    deviceAddress path (devices.map (·.worker.names)) = some (some (socketName (decimal d.id))) := by
  induction devices with
  | nil => cases hd
  | cons e devices ih =>
      by_cases he : e.Meant path
      · obtain rfl := honly e List.mem_cons_self he
        exact deviceAddress_cons hpath he devices
      · rw [List.map_cons, deviceAddress, (findAddress_worker hpath e).2 he]
        obtain rfl | hd := List.mem_cons.mp hd
        · exact absurd hmeant he
        · exact ih hd (fun e' he' => honly e' (List.mem_cons_of_mem _ he'))

/-- Only the address of a device that is meant is found. -/
theorem deviceAddress_meant {path address : CString} (hpath : 0x2F ∈ path)
    {devices : List Registration}
    (h : deviceAddress path (devices.map (·.worker.names)) = some (some address)) :
    ∃ d ∈ devices, d.Meant path ∧ address = socketName (decimal d.id) := by
  induction devices with
  | nil => cases h
  | cons e devices ih =>
      by_cases he : e.Meant path
      · rw [deviceAddress_cons hpath he] at h
        exact ⟨e, List.mem_cons_self, he, (Option.some.inj (Option.some.inj h)).symm⟩
      · rw [List.map_cons, deviceAddress, (findAddress_worker hpath e).2 he] at h
        obtain ⟨d, hd, hx⟩ := ih h
        exact ⟨d, List.mem_cons_of_mem _ hd, hx⟩

/-! ### No two devices are meant -/

theorem Numeric.not_directory {name : CString} (h : Numeric name) : name ∉ directoryNames := by
  intro hname
  obtain rfl | rfl | rfl : name = [] ∨ name = ascii "." ∨ name = ascii ".." := by
    simpa [directoryNames] using hname
  · exact h.ne_nil rfl
  · exact @Numeric.notMem _ h 0x2E (by decide) (by decide)
  · exact @Numeric.notMem _ h 0x2E (by decide) (by decide)

theorem aliasPath_eq {name : CString} (h : 0x2F ∉ name) :
    Directory.aliasPath name = socketName name := by
  rw [Directory.aliasPath]
  congr 1
  conv_rhs => rw [← List.map_id name]
  apply List.map_congr_left
  rintro b hb
  rw [if_neg, id]
  rintro rfl
  exact h hb

theorem Registration.Named.noSlash {d : Registration} {name : CString}
    (hlabel : ∀ label ∈ d.label, 0x2F ∉ label) (h : d.Named name) : 0x2F ∉ name := by
  obtain rfl | rfl | h := h
  · exact slash_notMem_decimal _
  · exact slash_notMem_locationAlias _
  · exact hlabel name h

theorem Registration.meant_iff {d : Registration} (hlabel : ∀ label ∈ d.label, 0x2F ∉ label)
    {path : CString} (hpath : 0x2F ∈ path) :
    d.Meant path ↔ ∃ name, d.Named name ∧ path = socketName name := by
  constructor
  · rintro (rfl | rfl | ⟨label, hsome, rfl | rfl⟩)
    · exact ⟨_, .inl rfl, rfl⟩
    · exact ⟨_, .inr (.inl rfl), rfl⟩
    · exact absurd hpath (hlabel path hsome)
    · exact ⟨label, .inr (.inr hsome), rfl⟩
  · rintro ⟨name, rfl | rfl | hsome, rfl⟩
    · exact .inl rfl
    · exact .inr (.inl rfl)
    · exact .inr (.inr ⟨name, hsome, .inr rfl⟩)

variable {devices : List Registration}

/-- A name belongs to one device, unless it makes no link. -/
theorem named_unique (hids : (devices.map (·.id)).Nodup) (hlocations : (devices.map (·.location)).Nodup)
    (hown : OwnLabels devices) {d e : Registration} (hd : d ∈ devices) (he : e ∈ devices)
    {name : CString} (hdname : d.Named name) (hename : e.Named name) :
    e = d ∨ name ∈ directoryNames := by
  by_cases hne : e = d
  · exact .inl hne
  -- a label is neither the index nor the location of the other device
  have hother {d e : Registration} (hd : d ∈ devices) (he : e ∈ devices) (hne : e ≠ d)
      (hlabel : d.label = some name) (hename : e.Named name) : name ∈ directoryNames := by
    obtain ⟨hindex, hlocation, hshared⟩ := (hown d hd name hlabel).2.2 e he hne
    obtain rfl | rfl | hlabel' := hename
    · exact absurd rfl hindex
    · exact absurd rfl hlocation
    · exact hshared hlabel'
  obtain rfl | rfl | hdlabel := hdname
  · obtain hindex | hlocation | helabel := hename
    · exact absurd (List.inj_on_of_nodup_map hids he hd (decimal_injective hindex).symm) hne
    · exact absurd hlocation.symm (locationAlias_ne_decimal _ _)
    · exact .inr (hother he hd (Ne.symm hne) helabel (.inl rfl))
  · obtain hindex | hlocation | helabel := hename
    · exact absurd hindex (locationAlias_ne_decimal _ _)
    · exact absurd (List.inj_on_of_nodup_map hlocations he hd
        (locationAlias_injective hlocation).symm) hne
    · exact .inr (hother he hd (Ne.symm hne) helabel (.inr (.inl rfl)))
  · exact .inr (hother hd he hne hdlabel hename)

/-! ### What is reached -/

namespace Registry

theorem Registered.devs {s : Registry} (h : s.Filed) (hr : s.Registered devices) :
    s.devs = (s.devs.map DeviceWorker.registration).map Registration.worker := by
  rw [List.map_map]
  conv_lhs => rw [← List.map_id s.devs]
  apply List.map_congr_left
  intro w hw
  have hpc := hr.1 w hw
  have haddr := h.addr w hw (.inr (.inr hpc))
  have hlocated := h.located w hw (.inr hpc)
  obtain ⟨⟨id, addrStr, locAlias, userAlias⟩, location, pc⟩ := w
  simp only at hpc haddr hlocated
  subst hpc haddr hlocated
  rfl

theorem Filed.socket_opens {s : Registry} (h : s.Filed) {w : DeviceWorker} (hw : w ∈ s.devs)
    (hb : w.Bound) (fuel : ℕ) :
    s.dir.opens (fuel + 1) (socketName (decimal w.names.id)) = some (some w.names.id) := by
  have hsocket := (h.socket_own hw).mpr ⟨rfl, hb⟩
  rw [Directory.opens, hsocket]

theorem Filed.socket_reached {s : Registry} (h : s.Filed) {w : DeviceWorker} (hw : w ∈ s.devs)
    (hb : w.Bound) : s.reached (socketName (decimal w.names.id)) = some w.names := by
  rw [reached, h.socket_opens hw hb]
  change (s.find w.names.id).map _ = _
  rw [h.find_mem hw, Option.map_some]

theorem Filed.link_reached {s : Registry} (h : s.Filed) {w : DeviceWorker} (hw : w ∈ s.devs)
    (hb : w.Bound) {path : CString} (hlink : s.dir path = some (.link (decimal w.names.id))) :
    s.reached path = some w.names := by
  have hopens : s.dir.opens (Directory.MAXSYMLINKS + 1) path = some (some w.names.id) := by
    rw [Directory.opens, hlink]
    change s.dir.opens Directory.MAXSYMLINKS (IGSOCK_NAME ++ decimal w.names.id) = _
    rw [← socketName_eq (slash_notMem_decimal _)]
    exact h.socket_opens hw hb 39
  rw [reached, hopens]
  change (s.find w.names.id).map _ = _
  rw [h.find_mem hw, Option.map_some]

theorem Filed.ctl_reached {s : Registry} (h : s.Filed) :
    s.reached (socketName (ascii "ctl")) = none := by
  have hctl := (h.ctl _).mpr rfl
  rw [reached, Directory.opens, hctl]
  rfl

/-- **With labels of their own** the registered devices are reached where `deviceAddress` looks for
them. -/
theorem Filed.agrees {s : Registry} (h : s.Filed) (hr : s.Registered devices)
    (hids : (devices.map (·.id)).Nodup) (hlocations : (devices.map (·.location)).Nodup)
    (hown : OwnLabels devices) : s.Agrees := by
  obtain ⟨present, hpresent⟩ : ∃ present, present = s.devs.map DeviceWorker.registration := ⟨_, rfl⟩
  have hperm : present.Perm devices := hpresent ▸ hr.2
  have hdevs : s.devs = present.map Registration.worker := hpresent ▸ Registered.devs h hr
  have hnames : s.devs.map (·.names) = present.map (·.worker.names) := by
    rw [hdevs, List.map_map]
    rfl
  have hnoSlash : ∀ d ∈ present, ∀ label ∈ d.label, 0x2F ∉ label :=
    fun d hd label hlabel => (hown d (hperm.mem_iff.mp hd) label hlabel).1
  have hworker {w : DeviceWorker} (hw : w ∈ s.devs) : ∃ d ∈ present, d.worker = w := by
    rw [hdevs] at hw
    exact List.mem_map.mp hw
  -- the device that is reached has the name, and nobody else
  have honly {path name : CString} {d : Registration} (hd : d ∈ present) (hname : d.Named name)
      (hpath : path = socketName name) (hlinked : name ∉ directoryNames)
      (hreached : s.reached path = some d.worker.names) :
      deviceAddress path (s.devs.map (·.names)) = some ((s.reached path).map (·.addrStr)) := by
    have hslash : 0x2F ∈ path := hpath ▸ slash_mem_socketName name
    rw [hnames, hreached]
    apply deviceAddress_only hslash hd ((Registration.meant_iff (hnoSlash d hd) hslash).mpr
      ⟨name, hname, hpath⟩)
    intro e he hmeant
    obtain ⟨name', hname', hpath'⟩ := (Registration.meant_iff (hnoSlash e he) hslash).mp hmeant
    obtain rfl := socketName_injective (hname.noSlash (hnoSlash d hd))
      (hname'.noSlash (hnoSlash e he)) (hpath.symm.trans hpath')
    obtain hsame | hdirectory := named_unique hids hlocations hown (hperm.mem_iff.mp hd)
      (hperm.mem_iff.mp he) hname hname'
    · exact hsame
    · exact absurd hdirectory hlinked
  rintro path ⟨entry, hentry, hmade⟩
  cases entry with
  | directory => exact absurd rfl hmade
  | socket id =>
      cases id with
      | none =>
          obtain rfl := (h.ctl path).mp hentry
          rw [h.ctl_reached, hnames]
          apply deviceAddress_none (slash_mem_socketName _)
          intro d hd hmeant
          obtain ⟨name, hname, hpath⟩ :=
            (Registration.meant_iff (hnoSlash d hd) (slash_mem_socketName _)).mp hmeant
          obtain rfl := socketName_injective (by decide) (hname.noSlash (hnoSlash d hd)) hpath
          obtain hindex | hlocation | hlabel := hname
          · exact absurd hindex.symm (numeric_decimal _).ne_ctl
          · exact absurd hlocation.symm (numeric_locationAlias _).ne_ctl
          · exact (hown d (hperm.mem_iff.mp hd) _ hlabel).2.1 rfl
      | some id =>
          obtain ⟨rfl, w, hw, rfl, hb⟩ := (h.socket path id).mp hentry
          obtain ⟨d, hd, rfl⟩ := hworker hw
          exact honly hd (.inl rfl) rfl (numeric_decimal _).not_directory (h.socket_reached hw hb)
  | link target =>
      obtain ⟨w, hw, hb, rfl, name, haliased, rfl⟩ := h.link path target hentry
      obtain ⟨d, hd, rfl⟩ := hworker hw
      have hname : d.Named name := by
        obtain rfl | ⟨-, hlabel⟩ := haliased
        · exact .inr (.inl rfl)
        · exact .inr (.inr hlabel)
      have hpath := aliasPath_eq (hname.noSlash (hnoSlash d hd))
      refine honly hd hname hpath (fun hdirectory => ?_) (h.link_reached hw hb hentry)
      have hslashless := hname.noSlash (hnoSlash d hd)
      rw [hpath, socketName_eq hslashless, (h.directory _).mpr (List.mem_map_of_mem hdirectory)] at hentry
      cases hentry

end Registry

end IguanaIR
