import IguanaIR.SocketNames

/-! # The devices that the LIRC driver lists

`list_devices` of `iguanair.c` reads the string that `deviceSummary` has built.  A field ends at a
bar, and the fields before the label also at a comma; the label is the last field of its device, so
it may hold commas and colons.

The scanner goes through the string from left to right, so its position is the rest of the string.
It is undefined (`none`) where it would read behind the string, use `idx` before it is set, or write
behind one of its buffers. -/

namespace IguanaIR

/-! ### `list_devices` -/

/-- Does the field end at this byte? -/
def endsField (type b : Byte) : Bool := b == 0x7C || ((type == 0x69 || type == 0x6C) && b == 0x2C)

/-- `strncpy` of as many bytes as there are into a buffer. -/
def strncpyInto (buf : List Byte) (start : List Byte) : Option (List Byte) :=
  if start.length ≤ buf.length then some (start ++ buf.drop start.length) else none

/-- The entry for a name, behind its path. -/
def describe (type : Byte) (s : CString) (idx : Option CString) : Option CString :=
  if type = 0x69 then some (s ++ ascii " [1781:0938]")
  else if type = 0x6C ∨ type = 0x75 then idx.map (fun idx => s ++ ascii " ->" ++ idx)
  else some s

/-- The entry for a field, with the path of the device that is being read. -/
def listField (type : Byte) (field : List Byte) (idx : Option CString) :
    Option (Option CString × CString) := do
  let buf ← strncpyInto (List.replicate 13 0) field
  let name ← cString buf
  let size := IGSOCK_NAME.length + name.length + 42 + IGSOCK_NAME.length + 8
  let idx := if type = 0x69 then some (IGSOCK_NAME ++ name) else idx
  let s ← describe type (IGSOCK_NAME ++ name) idx
  if s.block.length ≤ size then some (idx, s) else none

/-- The loop, whose every round reads two bytes or more. -/
def listFields : ℕ → Option CString → CString → List CString → Option (List CString)
  | 0, _, _, _ => none
  | _ + 1, _, [], devices => some devices
  | _ + 1, _, [_], _ => none
  | fuel + 1, idx, type :: _ :: start, devices =>
      let field := start.takeWhile (fun b => !endsField type b)
      let next := (start.dropWhile (fun b => !endsField type b)).drop 1
      if field = [] then listFields fuel idx next devices
      else match listField type field idx with
        | none => none
        | some (idx, s) => listFields fuel idx next (devices ++ [s])

/-- The paths that are added, none if there is no list. -/
def listDevices : Option CString → Option (List CString)
  | none => some []
  | some devList => listFields (devList.length + 1) none devList []

/-! ### What is listed -/

/-- The names that a device of the daemon can have. -/
structure Names.Listable (d : Names) : Prop where
  id : d.id < 10000000
  locAlias : ∀ locAlias ∈ d.locAlias, ∃ location, locAlias = locationAlias location
  userAlias : ∀ userAlias ∈ d.userAlias, userAlias.length ≤ 12 ∧ 0x7C ∉ userAlias ∧ 0 ∉ userAlias

def indexPath (d : Names) : CString := IGSOCK_NAME ++ decimal d.id

/-- An alias points to the path of the index. -/
def aliasEntry (d : Names) (name : CString) : CString :=
  IGSOCK_NAME ++ name ++ ascii " ->" ++ indexPath d

/-- One path for the index, one for the location and one for a label that is not empty. -/
def devicePaths (d : Names) : List CString :=
  (indexPath d ++ ascii " [1781:0938]") ::
    (d.locAlias.toList ++ d.userAlias.toList.filter (· ≠ [])).map (aliasEntry d)

theorem cString_null : ∀ {s : List Byte} (rest : List Byte), 0 ∉ s → cString (s ++ 0 :: rest) = some s
  | [], _, _ => rfl
  | b :: s, rest, h => by
      rw [List.mem_cons, not_or] at h
      rw [List.cons_append, cString, if_neg (Ne.symm h.1), cString_null rest h.2]
      rfl

/-- A field of at most 12 bytes fits, and the entry has the size that was allocated. -/
theorem listField_eq {type : Byte} {field s : CString} {idx : Option CString}
    (hlength : field.length ≤ 12) (hnull : 0 ∉ field)
    (hs : describe type (IGSOCK_NAME ++ field)
      (if type = 0x69 then some (IGSOCK_NAME ++ field) else idx) = some s)
    (hsize : s.length ≤ IGSOCK_NAME.length + field.length + IGSOCK_NAME.length + 49) :
    listField type field idx =
      some (if type = 0x69 then some (IGSOCK_NAME ++ field) else idx, s) := by
  have hcopy : strncpyInto (List.replicate 13 0) field =
      some (field ++ 0 :: List.replicate (12 - field.length) 0) := by
    rw [strncpyInto, List.length_replicate, if_pos (by omega), List.drop_replicate,
      show 13 - field.length = (12 - field.length) + 1 by omega, List.replicate_succ]
  have hblock : s.block.length = s.length + 1 := by
    rw [CString.block, List.length_append, List.length_singleton]
  simp only [listField, hcopy, cString_null _ hnull, hs, hblock, Option.bind_eq_bind, Option.bind_some]
  rw [if_pos (by omega)]

/-- **One round**: a field up to the byte that ends it. -/
theorem listFields_field {fuel : ℕ} {type colon : Byte} {field tail : List Byte}
    {idx : Option CString} {devices : List CString}
    (hfield : ∀ b ∈ field, endsField type b = false)
    (htail : ∀ b ∈ tail.head?, endsField type b = true) :
    listFields (fuel + 1) idx (type :: colon :: (field ++ tail)) devices =
      if field = [] then listFields fuel idx (tail.drop 1) devices
      else match listField type field idx with
        | none => none
        | some (idx, s) => listFields fuel idx (tail.drop 1) (devices ++ [s]) := by
  have hends : ∀ b ∈ field, (!endsField type b) = true := by
    intro b hb
    rw [hfield b hb]
    rfl
  have htake : tail.takeWhile (fun b => !endsField type b) = [] ∧
      tail.dropWhile (fun b => !endsField type b) = tail := by
    cases tail with
    | nil => exact ⟨rfl, rfl⟩
    | cons b tail =>
        have hb : ¬(!endsField type b) = true := by rw [htail b rfl]; decide
        exact ⟨List.takeWhile_cons_of_neg hb, List.dropWhile_cons_of_neg hb⟩
  rw [listFields, List.takeWhile_append_of_pos hends, List.dropWhile_append_of_pos hends, htake.1,
    htake.2, List.append_nil]

/-! ### One device -/

variable {fuel : ℕ} {idx : Option CString} {devices : List CString} {d : Names}

/-- A field that has a name, with what is left of the fuel. -/
theorem listFields_named {type colon : Byte} {field tail s : CString} {idx' : Option CString}
    (hfuel : (type :: colon :: (field ++ tail)).length < fuel)
    (hfield : ∀ b ∈ field, endsField type b = false)
    (htail : ∀ b ∈ tail.head?, endsField type b = true) (hne : field ≠ [])
    (hentry : listField type field idx = some (idx', s)) :
    ∃ fuel', (tail.drop 1).length < fuel' ∧
      listFields fuel idx (type :: colon :: (field ++ tail)) devices =
        listFields fuel' idx' (tail.drop 1) (devices ++ [s]) := by
  cases fuel with
  | zero => cases hfuel
  | succ fuel =>
      refine ⟨fuel, ?_, ?_⟩
      · simp only [List.length_cons, List.length_append, List.length_drop] at hfuel ⊢
        omega
      · rw [listFields_field hfield htail, if_neg hne, hentry]

/-- The field of an alias in the summary, with the comma before it. -/
def aliasField (type : Byte) : Option CString → CString
  | none => []
  | some name => 0x2C :: type :: 0x3A :: name

theorem aliasSummary_eq (d : Names) :
    aliasSummary d = 0x69 :: 0x3A ::
      (decimal d.id ++ (aliasField 0x6C d.locAlias ++ aliasField 0x75 d.userAlias)) := by
  unfold aliasSummary aliasField
  rw [List.append_assoc, List.append_assoc]
  cases d.locAlias <;> cases d.userAlias <;> rfl

theorem listField_alias {type : Byte} (htype : type = 0x6C ∨ type = 0x75) (hid : d.id < 10000000)
    {name : CString} (hlength : name.length ≤ 12) (hnull : 0 ∉ name) :
    listField type name (some (indexPath d)) = some (some (indexPath d), aliasEntry d name) := by
  have hindex : type ≠ 0x69 := by obtain rfl | rfl := htype <;> decide
  have hdecimal : (decimal d.id).length ≤ 7 := decimal_length (by decide) hid
  have hdescribe : describe type (IGSOCK_NAME ++ name) (some (indexPath d)) =
      some (aliasEntry d name) := by
    rw [describe, if_neg hindex, if_pos htype]
    rfl
  have hentry := @listField_eq type name (aliasEntry d name) (some (indexPath d)) hlength hnull
  rw [if_neg hindex] at hentry
  apply hentry hdescribe
  simp only [aliasEntry, indexPath, List.length_append, show (ascii " ->").length = 3 from rfl]
  omega

/-- An alias that the summary has or has not. -/
theorem listFields_alias {type : Byte} (htype : type = 0x6C ∨ type = 0x75) (hid : d.id < 10000000)
    {name : Option CString} {rest : CString}
    (hname : ∀ n ∈ name, n.length ≤ 12 ∧ 0 ∉ n ∧ ∀ b ∈ n, endsField type b = false)
    (hrest : ∀ b ∈ rest.head?, endsField type b = true)
    (hfuel : ((aliasField type name ++ rest).drop 1).length < fuel) :
    ∃ fuel', (rest.drop 1).length < fuel' ∧
      listFields fuel (some (indexPath d)) ((aliasField type name ++ rest).drop 1) devices =
        listFields fuel' (some (indexPath d)) (rest.drop 1)
          (devices ++ (name.toList.filter (· ≠ [])).map (aliasEntry d)) := by
  cases name with
  | none =>
      refine ⟨fuel, hfuel, ?_⟩
      simp only [Option.toList_none, List.filter_nil, List.map_nil, List.append_nil]
      rfl
  | some name =>
      obtain ⟨hlength, hnull, hfield⟩ := hname name rfl
      change (type :: 0x3A :: (name ++ rest)).length < fuel at hfuel
      change ∃ fuel', _ ∧ listFields fuel _ (type :: 0x3A :: (name ++ rest)) devices = _
      by_cases hne : name = []
      · subst hne
        cases fuel with
        | zero => cases hfuel
        | succ fuel =>
            refine ⟨fuel, ?_, ?_⟩
            · simp only [List.length_cons, List.length_append, List.length_drop] at hfuel ⊢
              omega
            · rw [listFields_field hfield hrest, if_pos rfl]
              simp
      · obtain ⟨fuel', hfuel', hlist⟩ := @listFields_named fuel (some (indexPath d)) devices type 0x3A
          name rest _ _ hfuel hfield hrest hne (listField_alias htype hid hlength hnull)
        refine ⟨fuel', hfuel', hlist.trans ?_⟩
        simp [hne]

/-- **One device** adds its paths. -/
theorem listFields_device (h : d.Listable) {tail : CString}
    (htail : ∀ b ∈ tail.head?, b = 0x7C) (hfuel : (aliasSummary d ++ tail).length < fuel) :
    ∃ fuel', (tail.drop 1).length < fuel' ∧
      listFields fuel idx (aliasSummary d ++ tail) devices =
        listFields fuel' (some (indexPath d)) (tail.drop 1) (devices ++ devicePaths d) := by
  have hbar (type : Byte) : endsField type 0x7C = true := rfl
  have hends (type : Byte) : ∀ b ∈ tail.head?, endsField type b = true := by
    intro b hb
    rw [htail b hb]
    exact hbar type
  have hnumeric {type : Byte} {name : CString} (hname : Numeric name) :
      0 ∉ name ∧ ∀ b ∈ name, endsField type b = false := by
    refine ⟨hname.notMem (by decide), fun b hb => ?_⟩
    have hne {c : Byte} (hc : c ∉ name) : (b == c) = false := by
      rw [beq_eq_false_iff_ne]
      rintro rfl
      exact hc hb
    rw [endsField, hne (hname.notMem (by decide)), hne (hname.notMem (by decide)), Bool.and_false]
    rfl
  -- behind the index comes a comma, a bar or the end
  have hlabel (type : Byte) (htype : type = 0x69 ∨ type = 0x6C) :
      ∀ b ∈ (aliasField 0x75 d.userAlias ++ tail).head?, endsField type b = true := by
    cases d.userAlias with
    | none => exact hends type
    | some name =>
        intro b hb
        obtain rfl := Option.some.inj hb
        obtain rfl | rfl := htype <;> rfl
  have hlocation : ∀ b ∈ (aliasField 0x6C d.locAlias ++ (aliasField 0x75 d.userAlias ++ tail)).head?,
      endsField 0x69 b = true := by
    cases d.locAlias with
    | none => exact hlabel 0x69 (.inl rfl)
    | some name =>
        intro b hb
        obtain rfl := Option.some.inj hb
        rfl
  have hindex : listField 0x69 (decimal d.id) idx =
      some (some (indexPath d), indexPath d ++ ascii " [1781:0938]") := by
    have hdecimal : (decimal d.id).length ≤ 7 := decimal_length (by decide) h.id
    apply @listField_eq 0x69 (decimal d.id) _ idx (by omega)
      (@hnumeric 0x69 _ (numeric_decimal d.id)).1 rfl
    simp only [List.length_append, show (ascii " [1781:0938]").length = 12 from rfl]
    omega
  rw [aliasSummary_eq, List.cons_append, List.cons_append, List.append_assoc, List.append_assoc] at hfuel ⊢
  obtain ⟨fuel₁, hfuel₁, hlist₁⟩ := @listFields_named fuel idx devices 0x69 0x3A (decimal d.id) _ _ _
    hfuel (hnumeric (numeric_decimal d.id)).2 hlocation (decimal_ne_nil d.id) hindex
  obtain ⟨fuel₂, hfuel₂, hlist₂⟩ := @listFields_alias fuel₁
    (devices ++ [indexPath d ++ ascii " [1781:0938]"]) d 0x6C (.inl rfl) h.id d.locAlias _ (by
      intro n hn
      obtain ⟨location, rfl⟩ := h.locAlias n hn
      have hlength := locationAlias_length location
      exact ⟨by omega, hnumeric (numeric_locationAlias location)⟩)
    (hlabel 0x6C (.inr rfl)) hfuel₁
  obtain ⟨fuel₃, hfuel₃, hlist₃⟩ := @listFields_alias fuel₂
    (devices ++ [indexPath d ++ ascii " [1781:0938]"] ++
      (d.locAlias.toList.filter (· ≠ [])).map (aliasEntry d)) d 0x75 (.inr rfl) h.id d.userAlias tail (by
      intro n hn
      obtain ⟨hlength, hbar, hnull⟩ := h.userAlias n hn
      refine ⟨hlength, hnull, fun b hb => ?_⟩
      have hb' : (b == 0x7C) = false := by
        rw [beq_eq_false_iff_ne]
        rintro rfl
        exact hbar hb
      rw [endsField, hb']
      rfl)
    (hends 0x75) hfuel₂
  refine ⟨fuel₃, hfuel₃, hlist₁.trans (hlist₂.trans (hlist₃.trans ?_))⟩
  have hfilter : d.locAlias.toList.filter (· ≠ []) = d.locAlias.toList := by
    rw [List.filter_eq_self]
    intro n hn
    obtain ⟨location, rfl⟩ := h.locAlias n (Option.mem_toList.mp hn)
    exact decide_eq_true (numeric_locationAlias location).ne_nil
  rw [hfilter, devicePaths, List.map_append, List.append_assoc, List.append_assoc]
  rfl

/-! ### The whole list -/

/-- The summary is the device's own one with a bar before each, but for the first bar. -/
theorem deviceSummary_eq {server : Server} (h : server.devs ≠ []) :
    deviceSummary server = some ((server.devs.flatMap (fun d => 0x7C :: aliasSummary d)).drop 1) := by
  have hfold (devs : List Names) (buf : CString) :
      devs.foldl (fun buf d => buf ++ ascii "|" ++ aliasSummary d) buf =
        buf ++ devs.flatMap (fun d => 0x7C :: aliasSummary d) := by
    induction devs generalizing buf with
    | nil => rw [List.foldl_nil, List.flatMap_nil, List.append_nil]
    | cons d devs ih =>
        rw [List.foldl_cons, ih, List.flatMap_cons, List.append_assoc, List.append_assoc]
        rfl
  unfold deviceSummary
  cases hdevs : server.devs with
  | nil => exact absurd hdevs h
  | cons idev devs =>
      dsimp only
      rw [hfold, List.flatMap_cons]
      rfl

theorem listFields_devices : ∀ (devs : List Names) {fuel : ℕ} {idx : Option CString}
    {devices : List CString}, (∀ d ∈ devs, d.Listable) →
    ((devs.flatMap (fun d => 0x7C :: aliasSummary d)).drop 1).length < fuel →
    listFields fuel idx ((devs.flatMap (fun d => 0x7C :: aliasSummary d)).drop 1) devices =
      some (devices ++ devs.flatMap devicePaths)
  | [], fuel, idx, devices, _, hfuel => by
      cases fuel with
      | zero => cases hfuel
      | succ fuel =>
          rw [List.flatMap_nil, List.flatMap_nil, List.append_nil, List.drop_nil, listFields]
  | d :: devs, fuel, idx, devices, hlistable, hfuel => by
      rw [List.forall_mem_cons] at hlistable
      rw [List.flatMap_cons, List.cons_append, List.drop_one, List.tail_cons] at hfuel ⊢
      have htail : ∀ b ∈ (devs.flatMap (fun d => 0x7C :: aliasSummary d)).head?, b = 0x7C := by
        cases devs with
        | nil => exact nofun
        | cons e devs =>
            intro b hb
            exact (Option.some.inj hb).symm
      obtain ⟨fuel', hfuel', hlist⟩ := listFields_device hlistable.1 htail hfuel
      rw [hlist, listFields_devices devs hlistable.2 hfuel', List.flatMap_cons, List.append_assoc]

/-- **Round trip.**  `list_devices` adds the paths of all devices of the summary, in their order,
and stays within its buffers. -/
theorem listDevices_summary {server : Server} (h : ∀ d ∈ server.devs, d.Listable) :
    listDevices (deviceSummary server) = some (server.devs.flatMap devicePaths) := by
  by_cases hdevs : server.devs = []
  · rw [deviceSummary, hdevs]
    rfl
  · rw [deviceSummary_eq hdevs, listDevices, listFields_devices server.devs h (Nat.lt_succ_self _),
      List.nil_append]

/-- Two devices, one of them with a label that looks like a summary. -/
def twoDevices : List Names :=
  [⟨0, ascii "/var/run/iguanaIR/0", some (locationAlias (1, 2)), some (ascii ",l:3-4,u:x")⟩,
    ⟨1, ascii "/var/run/iguanaIR/1", some (locationAlias (1, 13)), some []⟩]

theorem listDevices_summary_two : listDevices (deviceSummary ⟨true, twoDevices⟩) = some
    [ascii "/var/run/iguanaIR/0 [1781:0938]", ascii "/var/run/iguanaIR/1-2 ->/var/run/iguanaIR/0",
      ascii "/var/run/iguanaIR/,l:3-4,u:x ->/var/run/iguanaIR/0",
      ascii "/var/run/iguanaIR/1 [1781:0938]", ascii "/var/run/iguanaIR/1-13 ->/var/run/iguanaIR/1"] := by
  have hlistable : ∀ d ∈ twoDevices, d.Listable := by
    intro d hd
    obtain rfl | rfl : d = ⟨0, _, _, _⟩ ∨ d = ⟨1, _, _, _⟩ := by simpa [twoDevices] using hd
    · refine ⟨by decide, fun l hl => ⟨(1, 2), (Option.some.inj hl).symm⟩, fun u hu => ?_⟩
      obtain rfl := Option.some.inj hu
      decide
    · refine ⟨by decide, fun l hl => ⟨(1, 13), (Option.some.inj hl).symm⟩, fun u hu => ?_⟩
      obtain rfl := Option.some.inj hu
      decide
  rw [@listDevices_summary ⟨true, twoDevices⟩ hlistable]
  decide

end IguanaIR
