import IguanaIR.AliasDirectory
import IguanaIR.DeviceTransaction

/-! # The devices in the socket directory

`Filed` says what the directory and the list of devices have in common after any steps of the
workers: a socket belongs to the device with its index, a link to a device that has its name as an
alias, and both go with the device (`run_filed`). -/

namespace IguanaIR

namespace Directory

/-! ### What the operations leave -/

/-- The path of the alias, unless something else than a link is there. -/
theorem createLink_alias {dir : Directory} {name : CString}
    (h : ∀ entry, dir (aliasPath name) = some entry → ∃ t, entry = .link t) (target : CString) :
    dir.createLink target name (aliasPath name) = some (.link target) := by
  unfold createLink
  cases hdir : dir (aliasPath name) with
  | none => exact if_pos rfl
  | some entry =>
      obtain ⟨t, rfl⟩ := h entry hdir
      exact if_pos rfl

theorem createLink_cases (dir : Directory) (target name path : CString) :
    (path = aliasPath name ∧ (∀ entry, dir path = some entry → ∃ t, entry = .link t) ∧
      dir.createLink target name path = some (.link target)) ∨
    dir.createLink target name path = dir path := by
  by_cases hpath : path = aliasPath name
  · subst hpath
    by_cases hlink : ∀ entry, dir (aliasPath name) = some entry → ∃ t, entry = .link t
    · exact .inl ⟨rfl, hlink, createLink_alias hlink target⟩
    · right
      push Not at hlink
      obtain ⟨entry, hentry, hother⟩ := hlink
      rw [createLink, hentry]
      cases entry with
      | link t => exact absurd rfl (hother t)
      | directory => exact hentry
      | socket id => exact hentry
  · right
    unfold createLink
    cases dir (aliasPath name) with
    | none => exact if_neg hpath
    | some entry =>
        cases entry with
        | link t => exact if_neg hpath
        | directory => rfl
        | socket id => rfl

/-- Everything but links stays. -/
theorem setAlias_kept {dir : Directory} {target path : CString} {deleteAll : Bool}
    {name : Option CString} {entry : DirEntry} (h : ∀ t, entry ≠ .link t) :
    dir.setAlias target deleteAll name path = some entry ↔ dir path = some entry := by
  have hdelete : (if deleteAll then dir.deleteLinks target else dir) path = some entry ↔
      dir path = some entry := by
    cases deleteAll with
    | false => rfl
    | true =>
        rw [if_pos rfl, deleteLinks]
        split_ifs with hlink
        · rw [hlink]
          exact iff_of_false nofun (fun he => h _ (Option.some.inj he).symm)
        · rfl
  cases name with
  | none => exact hdelete
  | some name =>
      rw [← hdelete]
      change Directory.createLink _ target name path = _ ↔ _
      obtain ⟨-, hlink, hcreated⟩ | hsame := createLink_cases
        (if deleteAll then dir.deleteLinks target else dir) target name path
      · rw [hcreated]
        constructor
        · intro he
          exact absurd (Option.some.inj he).symm (h _)
        · intro he
          obtain ⟨t, ht⟩ := hlink entry he
          exact absurd ht (h t)
      · rw [hsame]

theorem setAlias_socket {dir : Directory} {target path : CString} {deleteAll : Bool}
    {name : Option CString} {id : Option ℕ} :
    dir.setAlias target deleteAll name path = some (.socket id) ↔ dir path = some (.socket id) :=
  setAlias_kept (fun _ => DirEntry.noConfusion)

theorem setAlias_directory {dir : Directory} {target path : CString} {deleteAll : Bool}
    {name : Option CString} :
    dir.setAlias target deleteAll name path = some .directory ↔ dir path = some .directory :=
  setAlias_kept (fun _ => DirEntry.noConfusion)

/-- Each link is the new one or an old one, which is to another target when all links to this one
are deleted. -/
theorem setAlias_link {dir : Directory} {target path t : CString} {deleteAll : Bool}
    {name : Option CString} (h : dir.setAlias target deleteAll name path = some (.link t)) :
    (t = target ∧ ∃ n ∈ name, path = aliasPath n) ∨
      (dir path = some (.link t) ∧ (deleteAll = true → t ≠ target)) := by
  have hdelete (h : (if deleteAll then dir.deleteLinks target else dir) path = some (.link t)) :
      dir path = some (.link t) ∧ (deleteAll = true → t ≠ target) := by
    cases deleteAll with
    | false => exact ⟨h, nofun⟩
    | true =>
        rw [if_pos rfl, deleteLinks] at h
        split_ifs at h with hlink
        exact ⟨h, fun _ ht => hlink (ht ▸ h)⟩
  cases name with
  | none => exact .inr (hdelete h)
  | some name =>
      change Directory.createLink _ target name path = _ at h
      obtain ⟨hpath, -, hcreated⟩ | hsame := createLink_cases
        (if deleteAll then dir.deleteLinks target else dir) target name path
      · rw [hcreated] at h
        exact .inl ⟨(DirEntry.link.inj (Option.some.inj h)).symm, name, rfl, hpath⟩
      · rw [hsame] at h
        exact .inr (hdelete h)

end Directory

/-! ### The aliases of a device -/

theorem strncpy_spec : ∀ {n : ℕ} {bytes : List Byte} {s : CString}, strncpy n bytes = some s →
    s.length ≤ n ∧ 0 ∉ s
  | 0, _, _, h => by
      obtain rfl := Option.some.inj h
      exact ⟨Nat.le_refl 0, List.not_mem_nil⟩
  | _ + 1, [], _, h => by cases h
  | n + 1, b :: rest, s, h => by
      rw [strncpy] at h
      split_ifs at h with hb
      · obtain rfl := Option.some.inj h
        exact ⟨Nat.zero_le _, List.not_mem_nil⟩
      · obtain ⟨t, ht, rfl⟩ := Option.map_eq_some_iff.mp h
        obtain ⟨hlength, hnull⟩ := strncpy_spec ht
        refine ⟨Nat.succ_le_succ hlength, fun hmem => ?_⟩
        obtain rfl | hmem := List.mem_cons.mp hmem
        · exact hb rfl
        · exact hnull hmem

/-- What `getID` makes of the names is what its two steps make of them, with a label of at most 12
bytes. -/
theorem getID_names {fl : ℚ → ℚ} {server : Server} {d d' : Device}
    (h : getID fl server d = some d') : ∃ response : LabelRead,
      d'.idev.names = ((DeviceWorker.mk d.idev.names d.idev.location .aliasing).afterLocation.afterLabel
        response).names ∧
      ∀ label, response = .label label → label.length ≤ 12 ∧ 0 ∉ label := by
  unfold getID at h
  dsimp only at h
  split_ifs at h
  · obtain rfl := Option.some.inj h
    exact ⟨.unread, rfl, nofun⟩
  · simp only [readLabel, Option.bind_eq_bind, Option.bind_eq_some_iff, Prod.exists] at h
    obtain ⟨d₁, h₁, d₂, a, h₂, h⟩ := h
    have hnames {d d' : Device} (hk : d.Keeps d') : d'.idev.names = d.idev.names := by
      obtain ⟨features, cycles, hidev⟩ := hk
      rw [hidev]
    have hdummy : d₁.idev.names =
        { d.idev.names with locAlias := some (locationAlias d.idev.location) } := by
      unfold dummyGetID at h₁
      split_ifs at h₁
      · obtain ⟨⟨d₃, a'⟩, ht, rfl⟩ := Option.map_eq_some_iff.mp h₁
        exact hnames (deviceTransaction_keeps ht)
      · obtain rfl := Option.some.inj h₁
        rfl
    have hread := hnames (deviceTransaction_keeps h₂)
    rw [setAliases, hdummy] at hread
    split_ifs at h
    · obtain ⟨response, -, hs⟩ := Option.bind_eq_some_iff.mp h
      obtain ⟨label, hlabel, rfl⟩ := Option.map_eq_some_iff.mp hs
      obtain ⟨bytes, -, hcopy⟩ := Option.bind_eq_some_iff.mp hlabel
      refine ⟨.label label, ?_, ?_⟩
      · rw [setAliases, hread]
        rfl
      · rintro label' hsame
        obtain rfl := LabelRead.label.inj hsame
        exact strncpy_spec hcopy
    · obtain rfl := Option.some.inj h
      exact ⟨.failed, hread, nofun⟩

/-! ### The list and the directory -/

/-- Between `createServerPipe` and `closeServerPipe`. -/
def DeviceWorker.Bound (w : DeviceWorker) : Prop := w.pc = .aliasing ∨ w.pc = .labelling ∨ w.pc = .listening

/-- What the worker may have linked. -/
def DeviceWorker.Aliased (w : DeviceWorker) (name : CString) : Prop :=
  name = locationAlias w.location ∨ (w.pc ≠ .labelling ∧ w.names.userAlias = some name)

structure Registry.Filed (s : Registry) : Prop where
  ids : (s.devs.map (·.names.id)).Nodup
  addr : ∀ w ∈ s.devs, w.Bound → w.names.addrStr = socketName (decimal w.names.id)
  located : ∀ w ∈ s.devs, w.pc = .labelling ∨ w.pc = .listening →
    w.names.locAlias = some (locationAlias w.location)
  socket : ∀ path id, s.dir path = some (.socket (some id)) ↔
    path = socketName (decimal id) ∧ ∃ w ∈ s.devs, w.names.id = id ∧ w.Bound
  ctl : ∀ path, s.dir path = some (.socket none) ↔ path = socketName (ascii "ctl")
  directory : ∀ path, s.dir path = some .directory ↔ path ∈ directoryNames.map (IGSOCK_NAME ++ ·)
  link : ∀ path target, s.dir path = some (.link target) → ∃ w ∈ s.devs, w.Bound ∧
    target = decimal w.names.id ∧ ∃ name, w.Aliased name ∧ path = Directory.aliasPath name

namespace Registry

theorem start_filed : start.Filed where
  ids := List.nodup_nil
  addr := by simp [start]
  located := by simp [start]
  socket path id := by
    simp only [start, Directory.start]
    split_ifs <;> simp
  ctl path := by
    simp only [start, Directory.start]
    split_ifs with h <;> simp [h]
  directory path := by
    simp only [start, Directory.start]
    split_ifs with hctl hdir
    · subst hctl
      exact iff_of_false nofun (by decide)
    · exact iff_of_true rfl (List.contains_iff_mem.mp hdir)
    · exact iff_of_false nofun (fun hmem => hdir (List.contains_iff_mem.mpr hmem))
  link path target h := by
    simp only [start, Directory.start] at h
    split_ifs at h <;> cases h

theorem find_some {s : Registry} {id : ℕ} {w : DeviceWorker} (h : s.find id = some w) :
    w ∈ s.devs ∧ w.names.id = id :=
  ⟨List.mem_of_find?_eq_some h, by simpa using List.find?_some h⟩

theorem Filed.eq_of_id {s : Registry} (h : s.Filed) {v w : DeviceWorker} (hv : v ∈ s.devs)
    (hw : w ∈ s.devs) (hid : v.names.id = w.names.id) : v = w :=
  List.inj_on_of_nodup_map h.ids hv hw hid

theorem Filed.find_mem {s : Registry} (h : s.Filed) {w : DeviceWorker} (hw : w ∈ s.devs) :
    s.find w.names.id = some w := by
  cases hfind : s.find w.names.id with
  | none => exact absurd (decide_eq_true rfl) (List.find?_eq_none.mp hfind w hw)
  | some v =>
      obtain ⟨hv, hid⟩ := find_some hfind
      rw [h.eq_of_id hv hw hid]

theorem mem_put {s : Registry} {v w x : DeviceWorker} (hv : v ∈ s.devs) (hid : w.names.id = v.names.id) :
    x ∈ (s.put w).devs ↔ x = w ∨ (x ∈ s.devs ∧ x.names.id ≠ v.names.id) := by
  simp only [put, List.mem_map, hid]
  constructor
  · rintro ⟨y, hy, rfl⟩
    split_ifs with hsame
    · exact .inl rfl
    · exact .inr ⟨hy, hsame⟩
  · rintro (rfl | ⟨hx, hne⟩)
    · exact ⟨v, hv, if_pos rfl⟩
    · exact ⟨x, hx, if_neg hne⟩

theorem put_ids {s : Registry} {w : DeviceWorker} :
    (s.put w).devs.map (·.names.id) = s.devs.map (·.names.id) := by
  rw [put, List.map_map]
  apply List.map_congr_left
  intro v _
  rw [Function.comp_apply]
  split_ifs with hid
  · exact hid.symm
  · rfl

/-- A worker has become another one beside a directory in which all that belongs to others is as it
was. -/
theorem Filed.put {s : Registry} (h : s.Filed) {v w : DeviceWorker} {dir : Directory} (hv : v ∈ s.devs)
    (hid : w.names.id = v.names.id)
    (haddr : w.Bound → w.names.addrStr = socketName (decimal w.names.id))
    (hlocated : w.pc = .labelling ∨ w.pc = .listening →
      w.names.locAlias = some (locationAlias w.location))
    (hsocket : ∀ path, dir path = some (.socket (some v.names.id)) ↔
      path = socketName (decimal v.names.id) ∧ w.Bound)
    (hothers : ∀ path id, id ≠ some v.names.id →
      (dir path = some (.socket id) ↔ s.dir path = some (.socket id)))
    (hdirectory : ∀ path, dir path = some .directory ↔ s.dir path = some .directory)
    (hlink : ∀ path target, dir path = some (.link target) →
      (target = decimal v.names.id ∧ w.Bound ∧
        ∃ name, w.Aliased name ∧ path = Directory.aliasPath name) ∨
      (target ≠ decimal v.names.id ∧ s.dir path = some (.link target))) :
    ((s.put w).withDir dir).Filed where
  ids := by
    change ((s.put w).devs.map (·.names.id)).Nodup
    rw [put_ids]
    exact h.ids
  addr x hx hbound := by
    obtain rfl | ⟨hx, -⟩ := (mem_put hv hid).mp hx
    · exact haddr hbound
    · exact h.addr x hx hbound
  located x hx hpc := by
    obtain rfl | ⟨hx, -⟩ := (mem_put hv hid).mp hx
    · exact hlocated hpc
    · exact h.located x hx hpc
  socket path id := by
    change dir path = _ ↔ _
    by_cases hsame : id = v.names.id
    · subst hsame
      rw [hsocket]
      refine and_congr_right fun _ => ⟨fun hbound => ⟨w, (mem_put hv hid).mpr (.inl rfl), hid, hbound⟩, ?_⟩
      rintro ⟨x, hx, hxid, hbound⟩
      obtain rfl | ⟨-, hne⟩ := (mem_put hv hid).mp hx
      · exact hbound
      · exact absurd hxid hne
    · rw [hothers path (some id) (fun he => hsame (Option.some.inj he)), h.socket]
      refine and_congr_right fun _ => ⟨?_, ?_⟩
      · rintro ⟨x, hx, rfl, hbound⟩
        exact ⟨x, (mem_put hv hid).mpr (.inr ⟨hx, hsame⟩), rfl, hbound⟩
      · rintro ⟨x, hx, rfl, hbound⟩
        obtain rfl | ⟨hx, -⟩ := (mem_put hv hid).mp hx
        · exact absurd hid hsame
        · exact ⟨x, hx, rfl, hbound⟩
  ctl path := (hothers path none nofun).trans (h.ctl path)
  directory path := (hdirectory path).trans (h.directory path)
  link path target hpath := by
    obtain ⟨rfl, hbound, name, haliased, rfl⟩ | ⟨hne, hold⟩ := hlink path target hpath
    · exact ⟨w, (mem_put hv hid).mpr (.inl rfl), hbound, by rw [hid], name, haliased, rfl⟩
    · obtain ⟨x, hx, hbound, rfl, halias⟩ := h.link path target hold
      have hother : x.names.id ≠ v.names.id := fun hx => hne (congrArg decimal hx)
      exact ⟨x, (mem_put hv hid).mpr (.inr ⟨hx, hother⟩), hbound, rfl, halias⟩

/-- The link of a path is to the worker that has the alias. -/
theorem Filed.link_own {s : Registry} (h : s.Filed) {v : DeviceWorker} (hv : v ∈ s.devs) {path : CString}
    (hpath : s.dir path = some (.link (decimal v.names.id))) :
    v.Bound ∧ ∃ name, v.Aliased name ∧ path = Directory.aliasPath name := by
  obtain ⟨x, hx, hbound, hid, halias⟩ := h.link path _ hpath
  obtain rfl := h.eq_of_id hv hx (decimal_injective hid)
  exact ⟨hbound, halias⟩

theorem Filed.socket_own {s : Registry} (h : s.Filed) {v : DeviceWorker} (hv : v ∈ s.devs) {path : CString} :
    s.dir path = some (.socket (some v.names.id)) ↔
      path = socketName (decimal v.names.id) ∧ v.Bound := by
  rw [h.socket]
  refine and_congr_right fun _ => ⟨?_, fun hbound => ⟨v, hv, rfl, hbound⟩⟩
  rintro ⟨x, hx, hid, hbound⟩
  rw [← h.eq_of_id hx hv hid]
  exact hbound

/-- A bound worker sets an alias of its own. -/
theorem Filed.setAlias {s : Registry} (h : s.Filed) {v w : DeviceWorker} {deleteAll : Bool}
    {name : Option CString} (hv : v ∈ s.devs) (hid : w.names.id = v.names.id)
    (haddr : w.names.addrStr = v.names.addrStr)
    (hlocated : w.pc = .labelling ∨ w.pc = .listening →
      w.names.locAlias = some (locationAlias w.location))
    (hv' : v.Bound) (hw : w.Bound) (hnew : ∀ n ∈ name, w.Aliased n)
    (hold : deleteAll = false → ∀ n, v.Aliased n → w.Aliased n) :
    ((s.put w).withDir (s.dir.setAlias (decimal v.names.id) deleteAll name)).Filed := by
  refine h.put hv hid ?_ hlocated (fun path => ?_) (fun path id _ => ?_) (fun path => ?_)
    (fun path target hpath => ?_)
  · intro _
    rw [haddr, hid]
    exact h.addr v hv hv'
  · rw [Directory.setAlias_socket, h.socket_own hv, iff_true_intro hv', iff_true_intro hw]
  · exact Directory.setAlias_socket
  · exact Directory.setAlias_directory
  · obtain ⟨rfl, n, hn, rfl⟩ | ⟨hlink, hdeleted⟩ := Directory.setAlias_link hpath
    · exact .inl ⟨rfl, hw, n, hnew n hn, rfl⟩
    by_cases htarget : target = decimal v.names.id
    · subst htarget
      cases deleteAll with
      | true => exact absurd rfl (hdeleted rfl)
      | false =>
          obtain ⟨-, n, halias, rfl⟩ := h.link_own hv hlink
          exact .inl ⟨rfl, hw, n, hold rfl n halias, rfl⟩
    · exact .inr ⟨htarget, hlink⟩

/-- A worker without a socket leaves the directory alone. -/
theorem Filed.unbound {s : Registry} (h : s.Filed) {v w : DeviceWorker} (hv : v ∈ s.devs)
    (hid : w.names.id = v.names.id) (hv' : ¬v.Bound) (hw : ¬w.Bound) : (s.put w).Filed := by
  refine h.put hv hid (fun hbound => absurd hbound hw) (fun hpc => absurd (.inr hpc) hw)
    (fun path => ?_) (fun _ _ _ => .rfl) (fun _ => .rfl) (fun path target hpath => ?_)
  · rw [h.socket_own hv, iff_false_intro hv', iff_false_intro hw]
  · refine .inr ⟨?_, hpath⟩
    rintro rfl
    exact hv' (h.link_own hv hpath).1

theorem Filed.bind {s : Registry} (h : s.Filed) {v : DeviceWorker} {dir : Directory} {addrStr : CString}
    (hv : v ∈ s.devs) (hpc : v.pc = .starting)
    (hbind : s.dir.createServerPipe v.names.id = some (dir, addrStr)) :
    ((s.put (v.afterBind addrStr)).withDir dir).Filed := by
  unfold Directory.createServerPipe at hbind
  dsimp only at hbind
  split_ifs at hbind with hnone
  obtain ⟨rfl, rfl⟩ := Prod.mk.inj (Option.some.inj hbind)
  have hv' : ¬v.Bound := by simp [DeviceWorker.Bound, hpc]
  have hw : (v.afterBind (socketName (decimal v.names.id))).Bound := .inl rfl
  have hset {path : CString} (entry : DirEntry) (hne : entry ≠ .socket (some v.names.id)) :
      s.dir.set (socketName (decimal v.names.id)) (some (.socket (some v.names.id))) path =
        some entry ↔ s.dir path = some entry := by
    unfold Directory.set
    split_ifs with hpath
    · rw [hpath, hnone]
      exact iff_of_false (fun he => hne (Option.some.inj he).symm) nofun
    · rfl
  refine h.put hv (v.afterBind_id _) (fun _ => by simp) (fun hpc => ?_) (fun path => ?_) (fun path id hne => ?_)
    (fun path => hset .directory nofun) (fun path target hpath => ?_)
  · obtain hpc | hpc := hpc <;> cases hpc
  · unfold Directory.set
    split_ifs with hpath
    · exact iff_of_true rfl ⟨hpath, hw⟩
    · refine iff_of_false (fun hs => ?_) (fun hs => hpath hs.1)
      exact hv' ((h.socket_own hv).mp hs).2
  · exact hset (.socket id) (fun he => hne (DirEntry.socket.inj he))
  · rw [hset (.link target) nofun] at hpath
    refine .inr ⟨?_, hpath⟩
    rintro rfl
    exact hv' (h.link_own hv hpath).1

theorem Filed.close {s : Registry} (h : s.Filed) {v : DeviceWorker} (hv : v ∈ s.devs) (hv' : v.Bound) :
    ((s.put (v.goto .closed)).withDir
      ((s.dir.setAlias (decimal v.names.id) true none).closeServerPipe v.names.id)).Filed := by
  have hw : ¬(v.goto .closed).Bound := by simp [DeviceWorker.Bound, DeviceWorker.goto]
  have hown := (h.socket_own hv).mpr ⟨rfl, hv'⟩
  -- what is left behind was there, elsewhere than at the worker's own path
  have hleft {path : CString} {entry : DirEntry}
      (he : (s.dir.setAlias (decimal v.names.id) true none).closeServerPipe v.names.id path =
        some entry) :
      path ≠ socketName (decimal v.names.id) ∧
        s.dir.setAlias (decimal v.names.id) true none path = some entry := by
    unfold Directory.closeServerPipe Directory.set at he
    split_ifs at he with hpath
    exact ⟨hpath, he⟩
  -- and nothing else is lost, links to the worker apart
  have hkept {path : CString} {entry : DirEntry} (hne : entry ≠ .socket (some v.names.id))
      (he : s.dir.setAlias (decimal v.names.id) true none path = some entry)
      (hold : s.dir path = some entry) :
      (s.dir.setAlias (decimal v.names.id) true none).closeServerPipe v.names.id path =
        some entry := by
    unfold Directory.closeServerPipe Directory.set
    rw [if_neg, he]
    rintro rfl
    exact hne (Option.some.inj (hold.symm.trans hown))
  refine h.put hv rfl (fun hbound => absurd hbound hw) (fun hpc => absurd (.inr hpc) hw)
    (fun path => ?_) (fun path id hne => ?_) (fun path => ?_) (fun path target hpath => ?_)
  · refine iff_of_false (fun hs => ?_) (fun hs => hw hs.2)
    obtain ⟨hne, hs⟩ := hleft hs
    rw [Directory.setAlias_socket] at hs
    exact hne ((h.socket_own hv).mp hs).1
  · constructor
    · intro hs
      exact Directory.setAlias_socket.mp (hleft hs).2
    · intro hs
      exact hkept (fun he => hne (DirEntry.socket.inj he)) (Directory.setAlias_socket.mpr hs) hs
  · constructor
    · intro hd
      exact Directory.setAlias_directory.mp (hleft hd).2
    · intro hd
      exact hkept nofun (Directory.setAlias_directory.mpr hd) hd
  · obtain ⟨-, n, hn, -⟩ | ⟨hlink, hdeleted⟩ := Directory.setAlias_link (hleft hpath).2
    · cases hn
    · exact .inr ⟨hdeleted rfl, hlink⟩

theorem Filed.insert {s : Registry} (h : s.Filed) {id : ℕ} (hid : s.find id = none)
    (location : Byte × Byte) :
    Filed { s with devs := s.devs ++ [⟨⟨id, [], none, none⟩, location, .starting⟩] } := by
  obtain ⟨new, hnew⟩ : ∃ new : DeviceWorker, new = ⟨⟨id, [], none, none⟩, location, .starting⟩ := ⟨_, rfl⟩
  have hfresh : ∀ w ∈ s.devs, w.names.id ≠ id := by
    intro w hw
    simpa using List.find?_eq_none.mp hid w hw
  have hunbound : ¬new.Bound := by simp [DeviceWorker.Bound, hnew]
  rw [← hnew]
  have hmem {w : DeviceWorker} (hw : w ∈ s.devs ++ [new]) : w ∈ s.devs ∨ w = new := by
    simpa using hw
  refine ⟨?_, fun w hw hb => ?_, fun w hw hpc => ?_, fun path id => ?_, h.ctl, h.directory,
    fun path target hpath => ?_⟩
  · rw [List.map_append, List.nodup_append]
    refine ⟨h.ids, List.nodup_singleton _, ?_⟩
    rintro x hx y hy rfl
    obtain ⟨w, hw, rfl⟩ := List.mem_map.mp hx
    apply hfresh w hw
    rw [List.mem_singleton.mp hy, hnew]
  · obtain hw | rfl := hmem hw
    · exact h.addr w hw hb
    · exact absurd hb hunbound
  · obtain hw | rfl := hmem hw
    · exact h.located w hw hpc
    · exact absurd (.inr hpc) hunbound
  · rw [h.socket]
    refine and_congr_right fun _ => ⟨?_, ?_⟩
    · rintro ⟨w, hw, hx⟩
      exact ⟨w, List.mem_append_left _ hw, hx⟩
    · rintro ⟨w, hw, hwid, hb⟩
      obtain hw | rfl := hmem hw
      · exact ⟨w, hw, hwid, hb⟩
      · exact absurd hb hunbound
  · obtain ⟨w, hw, hx⟩ := h.link path target hpath
    exact ⟨w, List.mem_append_left _ hw, hx⟩

theorem Filed.remove {s : Registry} (h : s.Filed) {v : DeviceWorker} (hv : v ∈ s.devs) (hv' : ¬v.Bound) :
    Filed { s with devs := s.devs.filter (·.names.id ≠ v.names.id) } := by
  have hmem {w : DeviceWorker} (hw : w ∈ s.devs.filter (·.names.id ≠ v.names.id)) : w ∈ s.devs :=
    List.mem_of_mem_filter hw
  have hkept {w : DeviceWorker} (hw : w ∈ s.devs) (hb : w.Bound) :
      w ∈ s.devs.filter (·.names.id ≠ v.names.id) := by
    refine List.mem_filter.mpr ⟨hw, decide_eq_true fun hid => ?_⟩
    rw [h.eq_of_id hw hv hid] at hb
    exact hv' hb
  refine ⟨?_, fun w hw => h.addr w (hmem hw), fun w hw => h.located w (hmem hw),
    fun path id => ?_, h.ctl, h.directory, fun path target hpath => ?_⟩
  · exact h.ids.sublist (List.filter_sublist.map _)
  · rw [h.socket]
    refine and_congr_right fun _ => ⟨?_, ?_⟩
    · rintro ⟨w, hw, hid, hb⟩
      exact ⟨w, hkept hw hb, hid, hb⟩
    · rintro ⟨w, hw, hid, hb⟩
      exact ⟨w, hmem hw, hid, hb⟩
  · obtain ⟨w, hw, hb, hx⟩ := h.link path target hpath
    exact ⟨w, hkept hw hb, hb, hx⟩

/-- **One step** keeps the directory and the list of devices in order. -/
theorem step_filed {s s' : Registry} {id : ℕ} {e : WorkerEvent} (h : s.Filed)
    (hstep : s.step id e = some s') : s'.Filed := by
  cases hfind : s.find id with
  | none =>
      cases e with
      | insertItem location =>
          simp only [step, hfind] at hstep
          obtain rfl := Option.some.inj hstep
          exact h.insert hfind location
      | _ =>
          simp only [step, hfind] at hstep
          cases hstep
  | some v =>
      obtain ⟨hv, rfl⟩ := find_some hfind
      cases e with
      | insertItem location =>
          simp only [step, hfind] at hstep
          cases hstep
      | createServerPipe =>
          simp only [step, hfind] at hstep
          split_ifs at hstep with hpc
          have hunbound : ¬v.Bound := by simp [DeviceWorker.Bound, hpc]
          cases hbind : s.dir.createServerPipe v.names.id with
          | none =>
              rw [hbind] at hstep
              obtain rfl := Option.some.inj hstep
              exact h.unbound hv rfl hunbound (by simp [DeviceWorker.Bound, DeviceWorker.goto])
          | some bound =>
              rw [hbind] at hstep
              obtain rfl := Option.some.inj hstep
              exact h.bind hv hpc hbind
      | getID =>
          simp only [step, hfind] at hstep
          split_ifs at hstep with hpc
          obtain rfl := Option.some.inj hstep
          refine h.setAlias hv rfl rfl (fun _ => rfl) (.inl hpc) (.inr (.inl rfl)) ?_ nofun
          rintro n hn
          exact .inl (Option.some.inj hn).symm
      | readLabel response =>
          simp only [step, hfind] at hstep
          split_ifs at hstep with hpc
          obtain rfl := Option.some.inj hstep
          have hbound : v.Bound := .inr (.inl hpc)
          have hlocated := h.located v hv (.inl hpc)
          -- while the worker waited only its location was linked
          have hold {w : DeviceWorker} (hlocation : w.location = v.location) (n : CString)
              (halias : v.Aliased n) : w.Aliased n := by
            obtain rfl | ⟨hne, -⟩ := halias
            · exact .inl (by rw [hlocation])
            · exact absurd hpc hne
          have hkept {w : DeviceWorker} (hid : w.names.id = v.names.id)
              (haddr : w.names.addrStr = v.names.addrStr)
              (hlocation : w.location = v.location) (hlocAlias : w.names.locAlias = v.names.locAlias)
              (hlistening : w.pc = .listening) {name : Option CString}
              (hnew : ∀ n ∈ name, w.Aliased n) :
              ((s.put w).withDir (s.dir.setAlias (decimal v.names.id) false name)).Filed :=
            h.setAlias hv hid haddr (fun _ => by rw [hlocAlias, hlocated, hlocation]) hbound
              (.inr (.inr hlistening)) hnew (fun _ => hold hlocation)
          cases response with
          | unread => exact @hkept (v.afterLabel .unread) rfl rfl rfl rfl rfl none nofun
          | failed => exact @hkept (v.afterLabel .failed) rfl rfl rfl rfl rfl none nofun
          | label userAlias =>
              refine @hkept (v.afterLabel (.label userAlias)) rfl rfl rfl rfl rfl (some userAlias) ?_
              intro n hn
              exact .inr ⟨WorkerPc.noConfusion, hn⟩
      | setID =>
          simp only [step, hfind] at hstep
          split_ifs at hstep with hpc
          obtain rfl := Option.some.inj hstep
          refine @Filed.setAlias s h v (v.goto .aliasing) false none hv rfl rfl ?_
            (.inr (.inr hpc)) (.inl rfl) nofun ?_
          · rintro (hpc | hpc) <;> cases hpc
          · rintro - n (rfl | ⟨-, halias⟩)
            · exact .inl rfl
            · exact .inr ⟨WorkerPc.noConfusion, halias⟩
      | closeServerPipe =>
          simp only [step, hfind] at hstep
          split_ifs at hstep with hpc
          obtain rfl := Option.some.inj hstep
          exact h.close hv (.inr (.inr hpc))
      | removeItem =>
          simp only [step, hfind] at hstep
          split_ifs at hstep with hpc
          obtain rfl := Option.some.inj hstep
          exact h.remove hv (by simp [DeviceWorker.Bound, hpc])

theorem run_filed {s s' : Registry} {es : List (ℕ × WorkerEvent)} (h : s.Filed)
    (hrun : s.run es = some s') : s'.Filed := by
  induction es generalizing s with
  | nil =>
      obtain rfl := Option.some.inj hrun
      exact h
  | cons e es ih =>
      obtain ⟨s₁, hstep, hrest⟩ := Option.bind_eq_some_iff.mp hrun
      exact ih (step_filed h hstep) hrest

end Registry

end IguanaIR
