import IguanaIR.AliasLookup

/-! # Aliases that clash

The devices are registered in an order in which one that `deviceAddress` finds first is not the one
that is reached: all sockets are bound, and the device that has to be reached runs `getID` last. -/

namespace IguanaIR

/-- The worker of a device before `getID`. -/
def Registration.bound (d : Registration) : DeviceWorker :=
  ⟨⟨d.id, socketName (decimal d.id), none, none⟩, d.location, .aliasing⟩

/-- What `getID` gets from the device. -/
def Registration.response (d : Registration) : LabelRead :=
  match d.label with
  | none => .failed
  | some label => .label label

theorem Registration.bound_worker (d : Registration) :
    d.bound.afterLocation.afterLabel d.response = d.worker := by
  unfold Registration.response Registration.worker
  cases d.label <;> rfl

namespace Registry

variable {L : List Registration} {f : Registration → DeviceWorker} {s : Registry}

/-! ### Registering a list of devices -/

theorem run_append {s₁ : Registry} {es es' : List (ℕ × WorkerEvent)} (h : s.run es = some s₁) :
    s.run (es ++ es') = s₁.run es' := by
  rw [run, List.foldlM_append, ← run, h]
  rfl

theorem put_map {d : Registration} {w : DeviceWorker} (hids : (L.map (·.id)).Nodup)
    (hf : ∀ x, (f x).names.id = x.id) (hdevs : s.devs = L.map f) (hd : d ∈ L)
    (hw : w.names.id = d.id) : (s.put w).devs = L.map (Function.update f d w) := by
  rw [put, hdevs, List.map_map]
  apply List.map_congr_left
  intro x hx
  rw [Function.comp_apply, hf, hw]
  by_cases hxd : x = d
  · subst hxd
    rw [if_pos rfl, Function.update_self]
  · rw [if_neg (fun hid => hxd (List.inj_on_of_nodup_map hids hx hd hid)),
      Function.update_of_ne hxd]

/-- One device goes through `getID`. -/
theorem getID_run (h : s.Filed) (hids : (L.map (·.id)).Nodup) (hf : ∀ x, (f x).names.id = x.id)
    (hdevs : s.devs = L.map f) {d : Registration} (hd : d ∈ L) (hbound : f d = d.bound) :
    ∃ s', s.run [(d.id, .getID), (d.id, .readLabel d.response)] = some s' ∧
      s'.devs = L.map (Function.update f d d.worker) ∧
      s'.dir = (s.dir.setAlias (decimal d.id) true (some (locationAlias d.location))).setAlias
        (decimal d.id) false d.label := by
  have hmem : d.bound ∈ s.devs := by
    rw [hdevs, ← hbound]
    exact List.mem_map_of_mem hd
  have hfind : s.find d.id = some d.bound := h.find_mem hmem
  obtain ⟨s₁, hs₁⟩ : ∃ s₁, s₁ = (s.put d.bound.afterLocation).withDir
    (s.dir.setAlias (decimal d.id) true (some (locationAlias d.location))) := ⟨_, rfl⟩
  have hstep : s.step d.id .getID = some s₁ := by
    unfold step
    rw [hs₁, hfind]
    rfl
  have hmem₁ : d.bound.afterLocation ∈ s₁.devs := by
    rw [hs₁]
    exact (mem_put hmem (show d.bound.afterLocation.names.id = d.bound.names.id from rfl)).mpr
      (.inl rfl)
  have hfind₁ : s₁.find d.id = some d.bound.afterLocation := (step_filed h hstep).find_mem hmem₁
  obtain ⟨s₂, hs₂⟩ : ∃ s₂, s₂ = (s₁.put d.worker).withDir
    (s₁.dir.setAlias (decimal d.id) false d.label) := ⟨_, rfl⟩
  have hstep₂ : s₁.step d.id (.readLabel d.response) = some s₂ := by
    unfold step
    rw [hfind₁]
    dsimp only
    rw [if_pos (show d.bound.afterLocation.pc = .labelling from rfl), Registration.bound_worker, hs₂,
      Registration.response]
    cases d.label <;> rfl
  refine ⟨s₂, ?_, ?_, ?_⟩
  · simp only [run, List.foldlM_cons, List.foldlM_nil, hstep, hstep₂, Option.bind_eq_bind,
      Option.bind_some, Option.pure_def]
  · have hf₁ (x : Registration) :
        (Function.update f d d.bound.afterLocation x).names.id = x.id := by
      by_cases hxd : x = d
      · subst hxd
        rw [Function.update_self]
        rfl
      · rw [Function.update_of_ne hxd, hf]
    have hdevs₁ : s₁.devs = L.map (Function.update f d d.bound.afterLocation) := by
      rw [hs₁]
      exact put_map hids hf hdevs hd rfl
    rw [hs₂, ← Function.update_idem]
    exact put_map hids hf₁ hdevs₁ hd rfl
  · rw [hs₂, hs₁]
    rfl

theorem getIDs_run (hids : (L.map (·.id)).Nodup) : ∀ (Q : List Registration) {s : Registry}
    {f : Registration → DeviceWorker}, s.Filed → Q.Nodup → Q ⊆ L → (∀ x, (f x).names.id = x.id) →
    s.devs = L.map f → (∀ x ∈ Q, f x = x.bound) →
    ∃ es s', s.run es = some s' ∧ s'.devs = L.map (fun x => if x ∈ Q then x.worker else f x)
  | [], s, f, _, _, _, _, hdevs, _ => ⟨[], s, rfl, by simpa using hdevs⟩
  | d :: Q, s, f, h, hnodup, hsub, hf, hdevs, hbound => by
      obtain ⟨hdQ, hnodup⟩ := List.nodup_cons.mp hnodup
      obtain ⟨hdL, hsub⟩ := List.cons_subset.mp hsub
      obtain ⟨s₁, hrun₁, hdevs₁, -⟩ := getID_run h hids hf hdevs hdL (hbound d List.mem_cons_self)
      have hf₁ (x : Registration) : (Function.update f d d.worker x).names.id = x.id := by
        by_cases hxd : x = d
        · subst hxd
          rw [Function.update_self]
          rfl
        · rw [Function.update_of_ne hxd, hf]
      have hbound₁ : ∀ x ∈ Q, Function.update f d d.worker x = x.bound := by
        intro x hx
        rw [Function.update_of_ne (ne_of_mem_of_not_mem hx hdQ)]
        exact hbound x (List.mem_cons_of_mem d hx)
      obtain ⟨es, s', hrun, hdevs'⟩ := getIDs_run hids Q (run_filed h hrun₁) hnodup hsub hf₁ hdevs₁
        hbound₁
      refine ⟨_, s', (run_append hrun₁).trans hrun, ?_⟩
      rw [hdevs']
      apply List.map_congr_left
      intro x _
      by_cases hxd : x = d
      · subst hxd
        rw [if_neg hdQ, if_pos List.mem_cons_self, Function.update_self]
      · rw [Function.update_of_ne hxd]
        simp [hxd]

/-- Under a name that is no index, not the control socket and no directory there are only links. -/
theorem Filed.only_links (h : s.Filed) {name : CString} (hslash : 0x2F ∉ name)
    (hctl : name ≠ ascii "ctl") (hdirectory : name ∉ directoryNames)
    (hindex : ∀ w ∈ s.devs, name ≠ decimal w.names.id) :
    ∀ entry, s.dir (socketName name) = some entry → ∃ t, entry = .link t := by
  intro entry hentry
  cases entry with
  | link t => exact ⟨t, rfl⟩
  | directory =>
      obtain ⟨name', hname, hpath⟩ := List.mem_map.mp ((h.directory _).mp hentry)
      rw [socketName_eq hslash] at hpath
      rw [List.append_cancel_left hpath] at hname
      exact absurd hname hdirectory
  | socket owner =>
      cases owner with
      | none => exact absurd (socketName_injective hslash (by decide) ((h.ctl _).mp hentry)) hctl
      | some id =>
          obtain ⟨hpath, w, hw, rfl, -⟩ := (h.socket _ _).mp hentry
          exact absurd (socketName_injective hslash (slash_notMem_decimal _) hpath) (hindex w hw)

/-- Without labels nobody has a socket or a link under the index of a new device. -/
theorem Filed.index_free (h : s.Filed) {id : ℕ} (hnew : ∀ w ∈ s.devs, w.names.id ≠ id)
    (hlabels : ∀ w ∈ s.devs, w.names.userAlias = none) : s.dir (socketName (decimal id)) = none := by
  have hslash := slash_notMem_decimal id
  have hlinks := h.only_links hslash (numeric_decimal id).ne_ctl (numeric_decimal id).not_directory
    (fun w hw hid => hnew w hw (decimal_injective hid).symm)
  cases hentry : s.dir (socketName (decimal id)) with
  | none => rfl
  | some entry =>
      exfalso
      obtain ⟨t, rfl⟩ := hlinks entry hentry
      obtain ⟨v, hv, -, -, name, haliased, hpath⟩ := h.link _ _ hentry
      obtain rfl | ⟨-, hlabel⟩ := haliased
      · rw [aliasPath_eq (slash_notMem_locationAlias _)] at hpath
        exact locationAlias_ne_decimal _ _ (socketName_injective hslash
          (slash_notMem_locationAlias _) hpath).symm
      · rw [hlabels v hv] at hlabel
        cases hlabel

/-- All devices of a list bind their sockets. -/
theorem bound_run (hids : (L.map (·.id)).Nodup) :
    ∃ es s, start.run es = some s ∧ s.devs = L.map Registration.bound := by
  induction L using List.reverseRecOn with
  | nil => exact ⟨[], start, rfl, rfl⟩
  | append_singleton L d ih =>
      rw [List.map_append, List.nodup_append] at hids
      obtain ⟨hids', -, hfresh⟩ := hids
      obtain ⟨es, s, hrun, hdevs⟩ := ih hids'
      have h := run_filed start_filed hrun
      have hnew : ∀ w ∈ s.devs, w.names.id ≠ d.id := by
        intro w hw
        rw [hdevs] at hw
        obtain ⟨x, hx, rfl⟩ := List.mem_map.mp hw
        exact hfresh _ (List.mem_map_of_mem hx) _ (List.mem_singleton.mpr rfl)
      have hfind : s.find d.id = none := by
        rw [find, List.find?_eq_none]
        intro w hw
        simpa using hnew w hw
      obtain ⟨w, hw⟩ : ∃ w : DeviceWorker, w = ⟨⟨d.id, [], none, none⟩, d.location, .starting⟩ :=
        ⟨_, rfl⟩
      obtain ⟨s₁, hs₁⟩ : ∃ s₁, s₁ = { s with devs := s.devs ++ [w] } := ⟨_, rfl⟩
      have hstep : s.step d.id (.insertItem d.location) = some s₁ := by
        unfold step
        rw [hs₁, hfind, hw]
      have hmem₁ : w ∈ s₁.devs := by
        rw [hs₁]
        exact List.mem_append_right _ (List.mem_singleton.mpr rfl)
      have hfind₁ : s₁.find d.id = some w := by
        have hid : w.names.id = d.id := by rw [hw]
        rw [← hid]
        exact (step_filed h hstep).find_mem hmem₁
      have hfree : s₁.dir (socketName (decimal d.id)) = none := by
        rw [hs₁]
        apply h.index_free hnew
        intro v hv
        rw [hdevs] at hv
        obtain ⟨x, -, rfl⟩ := List.mem_map.mp hv
        rfl
      obtain ⟨s₂, hs₂⟩ : ∃ s₂, s₂ = (s₁.put d.bound).withDir (s₁.dir.set (socketName (decimal d.id))
        (some (.socket (some d.id)))) := ⟨_, rfl⟩
      have hstep₂ : s₁.step d.id .createServerPipe = some s₂ := by
        unfold step
        rw [hfind₁]
        dsimp only
        rw [Directory.createServerPipe, if_pos hfree, hs₂, hw]
        rfl
      refine ⟨es ++ [(d.id, .insertItem d.location), (d.id, .createServerPipe)], s₂, ?_, ?_⟩
      · rw [run_append hrun]
        simp only [run, List.foldlM_cons, List.foldlM_nil, hstep, hstep₂, Option.bind_eq_bind,
          Option.bind_some, Option.pure_def]
      · have hput : s₂.devs = (s.devs ++ [w]).map
            (fun v => if v.names.id = d.id then d.bound else v) := by
          rw [hs₂, hs₁]
          rfl
        have hold : s.devs.map (fun v => if v.names.id = d.id then d.bound else v) = s.devs := by
          conv_rhs => rw [← List.map_id s.devs]
          apply List.map_congr_left
          intro v hv
          exact if_neg (hnew v hv)
        rw [hput, List.map_append, hold, hdevs, List.map_append, List.map_singleton,
          List.map_singleton, if_pos (by rw [hw])]

/-- All devices are registered, and one of them runs `getID` last. -/
theorem registered_last (hids : (L.map (·.id)).Nodup) {x : Registration} (hx : x ∈ L) :
    ∃ (es : _) (s₁ s : Registry), start.run es = some s ∧ s₁.Filed ∧ (∀ w ∈ s₁.devs, ∃ y ∈ L, w.names.id = y.id) ∧
      s.devs = L.map Registration.worker ∧
      s.dir = (s₁.dir.setAlias (decimal x.id) true (some (locationAlias x.location))).setAlias
        (decimal x.id) false x.label := by
  have hnodup : L.Nodup := List.Nodup.of_map _ hids
  obtain ⟨es₀, s₀, hrun₀, hdevs₀⟩ := bound_run hids
  have h₀ := run_filed start_filed hrun₀
  obtain ⟨es₁, s₁, hrun₁, hdevs₁⟩ := getIDs_run hids (L.erase x) h₀ (hnodup.erase x)
    List.erase_subset (fun _ => rfl) hdevs₀ (fun _ _ => rfl)
  have h₁ := run_filed h₀ hrun₁
  have hf (y : Registration) : (if y ∈ L.erase x then y.worker else y.bound).names.id = y.id := by
    split_ifs <;> rfl
  have hxbound : (if x ∈ L.erase x then x.worker else x.bound) = x.bound :=
    if_neg hnodup.not_mem_erase
  obtain ⟨s, hrun, hdevs, hdir⟩ := getID_run h₁ hids hf hdevs₁ hx hxbound
  refine ⟨_, s₁, s, (run_append hrun₀).trans ((run_append hrun₁).trans hrun), h₁, ?_, ?_, hdir⟩
  · intro w hw
    rw [hdevs₁] at hw
    obtain ⟨y, hy, rfl⟩ := List.mem_map.mp hw
    exact ⟨y, hy, hf y⟩
  · rw [hdevs]
    apply List.map_congr_left
    intro y hy
    by_cases hyx : y = x
    · subst hyx
      rw [Function.update_self]
    · rw [Function.update_of_ne hyx, if_pos ((List.mem_erase_of_ne hyx).mpr hy)]

theorem setAlias_links {dir : Directory} {target path : CString} {deleteAll : Bool}
    {name : Option CString} (h : ∀ entry, dir path = some entry → ∃ t, entry = .link t) :
    ∀ entry, dir.setAlias target deleteAll name path = some entry → ∃ t, entry = .link t := by
  intro entry hentry
  cases entry with
  | link t => exact ⟨t, rfl⟩
  | directory => exact h _ (Directory.setAlias_directory.mp hentry)
  | socket id => exact h _ (Directory.setAlias_socket.mp hentry)

/-- Where there are only links the alias is set. -/
theorem setAlias_alias {dir : Directory} {name : CString}
    (h : ∀ entry, dir (Directory.aliasPath name) = some entry → ∃ t, entry = .link t)
    (target : CString) (deleteAll : Bool) :
    dir.setAlias target deleteAll (some name) (Directory.aliasPath name) = some (.link target) :=
  Directory.createLink_alias (@setAlias_links dir target _ deleteAll none h) target

/-- A link to the target stays. -/
theorem setAlias_stays {dir : Directory} {target path : CString}
    (h : dir path = some (.link target)) (name : Option CString) :
    dir.setAlias target false name path = some (.link target) := by
  cases name with
  | none => exact h
  | some name =>
      change dir.createLink target name path = _
      obtain ⟨-, -, hcreated⟩ | hsame := Directory.createLink_cases dir target name path
      · exact hcreated
      · rw [hsame, h]

/-! ### Clashes -/

variable {devices : List Registration} {d e : Registration} {label : CString}

/-- Some order of the workers' steps leaves a path on which the lookup is wrong. -/
def Clash (devices : List Registration) : Prop :=
  ∃ es s, start.run es = some s ∧ s.Registered devices ∧ ¬s.Agrees

/-- One device comes first in the list, one is the last to run `getID`. -/
theorem first_and_last (hids : (devices.map (·.id)).Nodup) (hd : d ∈ devices) (he : e ∈ devices) :
    ∃ (es : _) (s₁ s : Registry) (L : _), start.run es = some s ∧ s.Registered devices ∧ s.Filed ∧
      s.devs = (d :: L).map Registration.worker ∧ s₁.Filed ∧
      (∀ w ∈ s₁.devs, ∃ y ∈ devices, w.names.id = y.id) ∧
      s.dir = (s₁.dir.setAlias (decimal e.id) true (some (locationAlias e.location))).setAlias
        (decimal e.id) false e.label := by
  have hperm : (d :: devices.erase d).Perm devices := (List.perm_cons_erase hd).symm
  obtain ⟨es, s₁, s, hrun, h₁, hids₁, hdevs, hdir⟩ :=
    registered_last ((hperm.map (·.id)).nodup_iff.mpr hids) (hperm.mem_iff.mpr he)
  refine ⟨es, s₁, s, _, hrun, ⟨?_, ?_⟩, run_filed start_filed hrun, hdevs, h₁, ?_, hdir⟩
  · intro w hw
    rw [hdevs] at hw
    obtain ⟨x, -, rfl⟩ := List.mem_map.mp hw
    rfl
  · rw [hdevs, List.map_map]
    exact (List.Perm.of_eq (List.map_id _)).trans hperm
  · intro w hw
    obtain ⟨y, hy, hid⟩ := hids₁ w hw
    exact ⟨y, hperm.mem_iff.mp hy, hid⟩

theorem Registered.worker_mem (h : s.Filed) (hr : s.Registered devices) (he : e ∈ devices) :
    e.worker ∈ s.devs := by
  rw [Registered.devs h hr]
  exact List.mem_map_of_mem (hr.2.mem_iff.mpr he)

theorem names_workers {L : List Registration} (hdevs : s.devs = L.map Registration.worker) :
    s.devs.map (·.names) = L.map (·.worker.names) := by
  rw [hdevs, List.map_map]
  rfl

/-- The first device is found in place of the one that is reached. -/
theorem first_disagrees {L : List Registration} (hdevs : s.devs = (d :: L).map Registration.worker)
    {path : CString} (hslash : 0x2F ∈ path) (hmade : s.dir.Made path) (hmeant : d.Meant path)
    (hreached : (s.reached path).map (·.addrStr) ≠ some (socketName (decimal d.id))) :
    ¬s.Agrees := by
  intro hagrees
  have hlookup := hagrees path hmade
  rw [names_workers hdevs, deviceAddress_cons hslash hmeant] at hlookup
  exact hreached (Option.some.inj hlookup).symm

/-- Another device's address. -/
theorem address_ne (hids : (devices.map (·.id)).Nodup) (hd : d ∈ devices) (he : e ∈ devices)
    (hne : e ≠ d) : (some e.worker.names).map (·.addrStr) ≠ some (socketName (decimal d.id)) := by
  intro haddress
  apply hne
  apply List.inj_on_of_nodup_map hids he hd
  exact decimal_injective (socketName_injective (slash_notMem_decimal _) (slash_notMem_decimal _)
    (Option.some.inj haddress))

theorem ctl_clash (hids : (devices.map (·.id)).Nodup) (hd : d ∈ devices)
    (hlabel : d.label = some (ascii "ctl")) : Clash devices := by
  obtain ⟨es, -, s, L, hrun, hr, h, hdevs, -⟩ := first_and_last hids hd hd
  have hentry := (h.ctl (socketName (ascii "ctl"))).mpr rfl
  refine ⟨es, s, hrun, hr, first_disagrees hdevs (slash_mem_socketName _) ⟨_, hentry, nofun⟩
    (Registration.meant_label hlabel) ?_⟩
  rw [h.ctl_reached]
  exact nofun

theorem index_clash (hids : (devices.map (·.id)).Nodup) (hd : d ∈ devices) (he : e ∈ devices)
    (hne : e ≠ d) (hlabel : d.label = some (decimal e.id)) : Clash devices := by
  obtain ⟨es, -, s, L, hrun, hr, h, hdevs, -⟩ := first_and_last hids hd he
  have hmem := Registered.worker_mem h hr he
  have hbound : e.worker.Bound := .inr (.inr rfl)
  have hentry : s.dir (socketName (decimal e.id)) = some (.socket (some e.id)) :=
    (h.socket_own hmem).mpr ⟨rfl, hbound⟩
  have hreached := h.socket_reached hmem hbound
  change s.reached (socketName (decimal e.id)) = _ at hreached
  refine ⟨es, s, hrun, hr, first_disagrees hdevs (slash_mem_socketName _) ⟨_, hentry, nofun⟩
    (Registration.meant_label hlabel) ?_⟩
  rw [hreached]
  exact address_ne hids hd he hne

/-- The link is to one device and the name is the label of another. -/
theorem link_disagrees {L : List Registration} (h : s.Filed) (hr : s.Registered devices)
    (hdevs : s.devs = (d :: L).map Registration.worker) (hids : (devices.map (·.id)).Nodup)
    (hd : d ∈ devices) (he : e ∈ devices) (hne : e ≠ d) (hlabel : d.label = some label)
    (hlink : s.dir (socketName label) = some (.link (decimal e.id))) : ¬s.Agrees := by
  refine first_disagrees hdevs (slash_mem_socketName _) ⟨_, hlink, nofun⟩
    (Registration.meant_label hlabel) ?_
  have hmem := Registered.worker_mem h hr he
  have hreached := h.link_reached hmem (.inr (.inr rfl)) hlink
  rw [hreached]
  exact address_ne hids hd he hne

/-- The label of a device is the location of another, which is linked last. -/
theorem location_clash (hids : (devices.map (·.id)).Nodup) (hd : d ∈ devices) (he : e ∈ devices)
    (hne : e ≠ d) (hlabel : d.label = some (locationAlias e.location)) : Clash devices := by
  obtain ⟨es, s₁, s, L, hrun, hr, h, hdevs, h₁, -, hdir⟩ := first_and_last hids hd he
  have hnumeric := numeric_locationAlias e.location
  have hpath := aliasPath_eq (slash_notMem_locationAlias e.location)
  refine ⟨es, s, hrun, hr, link_disagrees h hr hdevs hids hd he hne hlabel ?_⟩
  rw [hdir]
  apply setAlias_stays
  rw [← hpath]
  apply setAlias_alias
  rw [hpath]
  exact h₁.only_links (slash_notMem_locationAlias _) hnumeric.ne_ctl hnumeric.not_directory
    (fun _ _ => locationAlias_ne_decimal _ _)

/-- Two devices have one label, which the second of them links last. -/
theorem label_clash (hids : (devices.map (·.id)).Nodup) (hd : d ∈ devices) (he : e ∈ devices)
    (hne : e ≠ d) (hlabel : d.label = some label) (hlabel' : e.label = some label)
    (hslash : 0x2F ∉ label) (hctl : label ≠ ascii "ctl") (hdirectory : label ∉ directoryNames) :
    Clash devices := by
  by_cases hindex : ∃ f ∈ devices, label = decimal f.id
  · -- one of the two is not the device of that index
    obtain ⟨f, hf, rfl⟩ := hindex
    by_cases hfd : f = d
    · subst hfd
      exact index_clash hids he hf (Ne.symm hne) hlabel'
    · exact index_clash hids hd hf hfd hlabel
  · obtain ⟨es, s₁, s, L, hrun, hr, h, hdevs, h₁, hids₁, hdir⟩ := first_and_last hids hd he
    have hpath := aliasPath_eq hslash
    refine ⟨es, s, hrun, hr, link_disagrees h hr hdevs hids hd he hne hlabel ?_⟩
    rw [hdir, hlabel', ← hpath]
    apply setAlias_alias
    apply setAlias_links
    rw [hpath]
    apply h₁.only_links hslash hctl hdirectory
    intro w hw hid
    obtain ⟨y, hy, hwy⟩ := hids₁ w hw
    exact hindex ⟨y, hy, hwy ▸ hid⟩

/-- A label with a slash is linked with a bar in its place. -/
theorem slash_clash (hids : (devices.map (·.id)).Nodup) (hd : d ∈ devices)
    (hlabel : d.label = some label) (hslash : 0x2F ∈ label) : Clash devices := by
  obtain ⟨es, s₁, s, L, hrun, hr, h, hdevs, h₁, -, hdir⟩ := first_and_last hids hd hd
  obtain ⟨aliasCopy, hcopy⟩ : ∃ aliasCopy : CString,
    aliasCopy = label.map (fun b => if b = 0x2F then 0x7C else b) := ⟨_, rfl⟩
  have hbar : 0x7C ∈ aliasCopy := by
    rw [hcopy]
    exact List.mem_map.mpr ⟨0x2F, hslash, rfl⟩
  have hslashless : 0x2F ∉ aliasCopy := by
    rw [hcopy]
    intro hmem
    obtain ⟨b, -, hb⟩ := List.mem_map.mp hmem
    split_ifs at hb with hb'
    · exact absurd hb (by decide)
    · exact hb' hb
  have hother {name : CString} (hname : 0x7C ∉ name) : aliasCopy ≠ name := fun he => hname (he ▸ hbar)
  have hnumeric {name : CString} (hname : Numeric name) : aliasCopy ≠ name :=
    hother (hname.notMem (by decide))
  have hpath : Directory.aliasPath label = socketName aliasCopy := by rw [hcopy, Directory.aliasPath]
  have hlink : s.dir (socketName aliasCopy) = some (.link (decimal d.id)) := by
    rw [hdir, hlabel, ← hpath]
    apply setAlias_alias
    apply setAlias_links
    rw [hpath]
    apply h₁.only_links hslashless (hother (by decide))
    · intro hmem
      obtain rfl | rfl | rfl : aliasCopy = [] ∨ aliasCopy = ascii "." ∨ aliasCopy = ascii ".." := by
        simpa [directoryNames] using hmem
      all_goals exact absurd hbar (by decide)
    · intro w _
      exact hnumeric (numeric_decimal _)
  refine ⟨es, s, hrun, hr, fun hagrees => ?_⟩
  have hlookup := hagrees _ ⟨_, hlink, DirEntry.noConfusion⟩
  have hreached := h.link_reached (Registered.worker_mem h hr hd) (.inr (.inr rfl)) hlink
  rw [hreached, names_workers hdevs] at hlookup
  -- whatever is found, it is not the device that is reached
  obtain ⟨x, hx, hmeant, haddress⟩ := deviceAddress_meant (slash_mem_socketName _) hlookup
  have hxd : x ∈ devices := by
    have hmem : x.worker ∈ s.devs := by
      rw [hdevs]
      exact List.mem_map_of_mem hx
    exact hr.2.mem_iff.mp (List.mem_map_of_mem hmem)
  obtain rfl : x = d := by
    apply List.inj_on_of_nodup_map hids hxd hd
    exact (decimal_injective (socketName_injective (slash_notMem_decimal _)
      (slash_notMem_decimal _) haddress)).symm
  obtain hindex | hlocation | ⟨label', hlabel', hpath' | hpath'⟩ := hmeant
  · exact hnumeric (numeric_decimal _)
      (socketName_injective hslashless (slash_notMem_decimal _) hindex)
  · exact hnumeric (numeric_locationAlias _)
      (socketName_injective hslashless (slash_notMem_locationAlias _) hlocation)
  all_goals
    obtain rfl := Option.some.inj (hlabel.symm.trans hlabel')
    first | rw [socketName_slash hslash] at hpath' | skip
    have hlength := congrArg List.length hpath'
    rw [socketName_eq hslashless, List.length_append, hcopy, List.length_map] at hlength
    exact absurd hlength (by simp [IGSOCK_NAME, ascii])

/-- **The lookup agrees with the directory**, in whatever order the devices have been registered, if
and only if their labels are names of their own. -/
theorem agrees_iff (hids : (devices.map (·.id)).Nodup)
    (hlocations : (devices.map (·.location)).Nodup) :
    (∀ es s, start.run es = some s → s.Registered devices → s.Agrees) ↔ OwnLabels devices := by
  constructor
  · intro hall d hd label hlabel
    have hnone : ¬Clash devices := fun ⟨es, s, hrun, hr, hnot⟩ => hnot (hall es s hrun hr)
    have hslash : 0x2F ∉ label := fun hslash => hnone (slash_clash hids hd hlabel hslash)
    have hctl : label ≠ ascii "ctl" := by
      rintro rfl
      exact hnone (ctl_clash hids hd hlabel)
    refine ⟨hslash, hctl, fun e he hne => ⟨?_, ?_, fun hlabel' => ?_⟩⟩
    · rintro rfl
      exact hnone (index_clash hids hd he hne hlabel)
    · rintro rfl
      exact hnone (location_clash hids hd he hne hlabel)
    · by_contra hdirectory
      exact hnone (label_clash hids hd he hne hlabel hlabel' hslash hctl hdirectory)
  · intro hown es s hrun hr
    exact (run_filed start_filed hrun).agrees hr hids hlocations hown

/-- Two devices of which one has a label. -/
theorem agrees_iff_labelled :
    (∀ es s, start.run es = some s →
      s.Registered [⟨0, (1, 2), some (ascii "tv")⟩, ⟨1, (1, 3), none⟩] → s.Agrees) ↔
    OwnLabels [⟨0, (1, 2), some (ascii "tv")⟩, ⟨1, (1, 3), none⟩] :=
  agrees_iff (by decide) (by decide)

/-- The label `a/b` is linked as `a|b`, where nobody looks for it. -/
theorem slash_label_lost : ∃ s, start.run [(0, .insertItem (1, 2)), (0, .createServerPipe),
      (0, .getID), (0, .readLabel (.label (ascii "a/b")))] = some s ∧
    s.Registered [⟨0, (1, 2), some (ascii "a/b")⟩] ∧ s.dir.Made (socketName (ascii "a|b")) ∧
    deviceAddress (socketName (ascii "a|b")) (s.devs.map (·.names)) = some none ∧
    (s.reached (socketName (ascii "a|b"))).map (·.addrStr) = some (socketName (ascii "0")) :=
  ⟨_, rfl, ⟨by decide, .refl _⟩, ⟨.link (ascii "0"), by decide, by decide⟩, by decide, by decide⟩

end Registry

end IguanaIR
