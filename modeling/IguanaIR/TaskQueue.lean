import IguanaIR.ClientCommands
import IguanaIR.Successive

/-! # The tasks that igclient queues

`enqueueTaskById` and `parseOption` of `client.c`.  A task that depends on the type of the device
is meant to have a `get features` task before it.  The queue is searched for the text of
`supportedCommands[IG_DEV_GETFEATURES]`, and row 16 of the table is another command.

A request is a code that an option passes to `enqueueTaskById`. -/

namespace IguanaIR

def needsFeatures (code : BitVec 16) : Bool :=
  code == commandCode IG_DEV_SETCHANNELS || code == commandCode IG_DEV_GETPINS ||
    code == commandCode IG_DEV_SETPINS

/-- What the tasks are compared with: the code is the index. -/
def searchedText : CString := (supportedCommands.get ⟨IG_DEV_GETFEATURES.toNat, by decide⟩).text

example : searchedText = ascii "encoded size" := by decide

def enqueueTask (tasks : List Igtask) (text : CString) (arg : Option CString) : List Igtask :=
  tasks ++ [⟨text, arg, none, false⟩]

/-- The first row with the code; without one the program ends. -/
def enqueueCode (tasks : List Igtask) (code : BitVec 16) (arg : Option CString) :
    Option (List Igtask) :=
  (supportedCommands.find? (fun spec => code == spec.code)).map
    (fun spec => enqueueTask tasks spec.text arg)

/-- `isSubTask` of the task that was added last. -/
def markSubTask (tasks : List Igtask) : List Igtask :=
  tasks.dropLast ++ tasks.getLast?.toList.map (fun cur => { cur with isSubTask := true })

/-- `get features` needs no features itself, so nothing comes before it. -/
def enqueueTaskById (tasks : List Igtask) (code : BitVec 16) (arg : Option CString) :
    Option (List Igtask) := do
  let tasks ←
    if needsFeatures code ∧ ∀ cur ∈ tasks, cur.command ≠ searchedText then
      (enqueueCode tasks (commandCode IG_DEV_GETFEATURES) none).map markSubTask
    else some tasks
  enqueueCode tasks code arg

structure Igclient where
  tasks : List Igtask
  /-- `params.device` -/
  device : Option CString
deriving DecidableEq, Repr

def ARGP_OFFSET : BitVec 32 := 0x200

/-- The keys that are codes. -/
def commandKeys : List (BitVec 32) :=
  ([IG_DEV_GETVERSION, IG_DEV_GETFEATURES, IG_DEV_SEND, IG_DEV_RECVON, IG_DEV_RECVOFF,
    IG_DEV_GETPINS, IG_DEV_SETPINS, IG_DEV_GETBUFSIZE, IG_DEV_WRITEBLOCK, IG_DEV_RESET,
    IG_DEV_GETCHANNELS, IG_DEV_SETCHANNELS, IG_DEV_GETCARRIER, IG_DEV_SETCARRIER,
    IG_DEV_PINBURST, IG_DEV_EXECUTE, IG_DEV_GETPINCONFIG, IG_DEV_SETPINCONFIG].map
      (fun code => code.setWidth 32)) ++
  ([INTERNAL_GETOUTPINS, INTERNAL_SETOUTPINS, INTERNAL_GETPULLPINS, INTERNAL_SETPULLPINS,
    INTERNAL_GETOPENPINS, INTERNAL_SETOPENPINS, INTERNAL_GETSINKPINS, INTERNAL_SETSINKPINS,
    INTERNAL_GETHOLDPINS, INTERNAL_SETHOLDPINS, INTERNAL_SLEEP].map (fun code => code.setWidth 32))

def OFFSET_RESEND : BitVec 32 := ARGP_OFFSET + IG_DEV_RESEND.setWidth 32

/-- The keys that must be offset since they are printable characters otherwise. -/
def offsetKeys : List (BitVec 32) :=
  [IG_DEV_RESEND, IG_DEV_GETID, IG_DEV_SETID, IG_DEV_GETLOCATION, IG_DEV_REPEATER,
    IG_DEV_SENDSIZE, IG_DEV_LISTALIASES, IG_DEV_GETADDRESS, IG_CTL_LISTDEVS, IG_CTL_DEVADDR].map
      (fun code => ARGP_OFFSET + code.setWidth 32)

/-- `'d'` -/
def deviceKey : BitVec 32 := 0x64

/-- The new state, and whether the key is known; a `--device` always has its argument. -/
def parseOption (key : BitVec 32) (arg : Option CString) (s : Igclient) : Option (Igclient × Bool) :=
  if key ∈ commandKeys then
    (enqueueTaskById s.tasks (key.setWidth 16) arg).map (fun tasks => ({ s with tasks := tasks }, true))
  else if key ∈ offsetKeys then
    -- `OFFSET_RESEND` falls through
    ((if key = OFFSET_RESEND then enqueueTaskById s.tasks INTERNAL_SLEEP arg else some s.tasks).bind
      (fun tasks => enqueueTaskById tasks ((key - ARGP_OFFSET).setWidth 16) arg)).map
        (fun tasks => ({ s with tasks := tasks }, true))
  else if key = deviceKey then
    arg.map (fun device => ({ s with device := if device = [] then none else some device }, true))
  else some (s, false)

/-- An option of the command line. -/
structure ClientOption where
  key : BitVec 32
  arg : Option CString
  valued : key = deviceKey → arg.isSome

def parseOptions (options : List ClientOption) (s : Igclient) : Option Igclient :=
  options.foldlM (fun s option => (parseOption option.key option.arg s).map (·.1)) s

/-- The command line is parsed with an empty list. -/
def Igclient.start : Igclient := ⟨[], none⟩

/-! ### Features before they are needed -/

def featuresText : CString := ascii "get features"

/-- The tasks that depend on the type of the device. -/
def needyTexts : List CString := [ascii "set channels", ascii "get pins", ascii "set pins"]

def commands (tasks : List Igtask) : List CString := tasks.map (·.command)

/-- A task that needs the features has a task that gets them before it, and a task that gets them has
none. -/
def FeaturesFetched (tasks : List Igtask) : Prop :=
  Successive.All (fun before command =>
    (command ∈ needyTexts → featuresText ∈ before) ∧
      (command = featuresText → featuresText ∉ before)) (commands tasks)

/-- The codes that the options request, in order. -/
def requests (key : BitVec 32) : List (BitVec 16) :=
  if key ∈ commandKeys then [key.setWidth 16]
  else if key ∈ offsetKeys then
    (if key = OFFSET_RESEND then [INTERNAL_SLEEP] else []) ++ [(key - ARGP_OFFSET).setWidth 16]
  else []

/-- The features are requested, or for a request that needs them and has no `encoded size` before
it. -/
def Requested (codes : List (BitVec 16)) : Prop :=
  Successive.Any (fun before code => code = commandCode IG_DEV_GETFEATURES ∨
    needsFeatures code ∧ commandCode IG_DEV_SENDSIZE ∉ before) codes

/-- A request that needs the features has an `encoded size` before it exactly if they have been
requested, and a request of the features itself comes only where they have not been. -/
def RequestsFit (codes : List (BitVec 16)) : Prop :=
  Successive.All (fun before code =>
    (needsFeatures code → (commandCode IG_DEV_SENDSIZE ∈ before ↔ Requested before)) ∧
      (code = commandCode IG_DEV_GETFEATURES → ¬ Requested before)) codes

/-! ### The tasks for the requests -/

/-- The task for a request. -/
structure Serves (task : Igtask) (code : BitVec 16) : Prop where
  size : task.command = searchedText ↔ code = commandCode IG_DEV_SENDSIZE
  features : task.command = featuresText ↔ code = commandCode IG_DEV_GETFEATURES
  needy : task.command ∈ needyTexts ↔ needsFeatures code

theorem serves_row : ∀ spec ∈ supportedCommands,
    (spec.text = searchedText ↔ spec.code = commandCode IG_DEV_SENDSIZE) ∧
    (spec.text = featuresText ↔ spec.code = commandCode IG_DEV_GETFEATURES) ∧
    (spec.text ∈ needyTexts ↔ needsFeatures spec.code) := by decide

theorem enqueueCode_serves {tasks tasks' : List Igtask} {code : BitVec 16} {arg : Option CString}
    (h : enqueueCode tasks code arg = some tasks') :
    ∃ task, Serves task code ∧ tasks' = tasks ++ [task] := by
  obtain ⟨spec, hfind, rfl⟩ := Option.map_eq_some_iff.mp h
  have hcode := List.find?_some hfind
  obtain rfl : code = spec.code := by simpa using hcode
  obtain ⟨hsize, hfeatures, hneedy⟩ := serves_row spec (List.mem_of_find?_eq_some hfind)
  exact ⟨_, ⟨hsize, hfeatures, hneedy⟩, rfl⟩

theorem markSubTask_concat (tasks : List Igtask) (task : Igtask) :
    markSubTask (tasks ++ [task]) = tasks ++ [{ task with isSubTask := true }] := by
  simp [markSubTask]

/-- **What a request adds**: its task, behind one that gets the features if it needs them and no
`encoded size` is queued. -/
theorem enqueueTaskById_serves {tasks tasks' : List Igtask} {code : BitVec 16} {arg : Option CString}
    (h : enqueueTaskById tasks code arg = some tasks') :
    ∃ task, Serves task code ∧
      if needsFeatures code ∧ ∀ cur ∈ tasks, cur.command ≠ searchedText then
        ∃ sub, Serves sub (commandCode IG_DEV_GETFEATURES) ∧ tasks' = (tasks ++ [sub]) ++ [task]
      else tasks' = tasks ++ [task] := by
  rw [enqueueTaskById] at h
  split_ifs at h ⊢
  · obtain ⟨queued, hsub, htask⟩ := Option.bind_eq_some_iff.mp h
    obtain ⟨queued', hqueued', rfl⟩ := Option.map_eq_some_iff.mp hsub
    obtain ⟨sub, hserves, rfl⟩ := enqueueCode_serves hqueued'
    obtain ⟨task, htask', rfl⟩ := enqueueCode_serves htask
    refine ⟨task, htask', _, ?_, by rw [markSubTask_concat]⟩
    exact ⟨hserves.size, hserves.features, hserves.needy⟩
  · obtain ⟨task, htask, rfl⟩ := enqueueCode_serves h
    exact ⟨task, htask, rfl⟩

/-! ### All the requests -/

/-- The tasks that are queued when these codes have been requested. -/
structure Queued (codes : List (BitVec 16)) (tasks : List Igtask) : Prop where
  size : searchedText ∈ commands tasks ↔ commandCode IG_DEV_SENDSIZE ∈ codes
  features : featuresText ∈ commands tasks ↔ Requested codes
  fetched : FeaturesFetched tasks ↔ RequestsFit codes

theorem commands_concat (tasks : List Igtask) (task : Igtask) :
    commands (tasks ++ [task]) = commands tasks ++ [task.command] := List.map_append ..

theorem Serves.size_concat {task : Igtask} {code : BitVec 16} (h : Serves task code)
    (tasks : List Igtask) : searchedText ∈ commands (tasks ++ [task]) ↔
      searchedText ∈ commands tasks ∨ code = commandCode IG_DEV_SENDSIZE := by
  rw [commands_concat, List.mem_append, List.mem_singleton, ← h.size, eq_comm (a := searchedText)]

theorem Serves.features_concat {task : Igtask} {code : BitVec 16} (h : Serves task code)
    (tasks : List Igtask) : featuresText ∈ commands (tasks ++ [task]) ↔
      featuresText ∈ commands tasks ∨ code = commandCode IG_DEV_GETFEATURES := by
  rw [commands_concat, List.mem_append, List.mem_singleton, ← h.features, eq_comm (a := featuresText)]

theorem Serves.fetched_concat {task : Igtask} {code : BitVec 16} (h : Serves task code)
    (tasks : List Igtask) :
    FeaturesFetched (tasks ++ [task]) ↔ FeaturesFetched tasks ∧
      (needsFeatures code → featuresText ∈ commands tasks) ∧
      (code = commandCode IG_DEV_GETFEATURES → featuresText ∉ commands tasks) := by
  rw [FeaturesFetched, commands_concat, Successive.all_concat, h.needy, h.features, FeaturesFetched]

theorem queued_start : Queued [] [] := by
  constructor <;> simp [commands, Requested, FeaturesFetched, RequestsFit]

/-- **One request** keeps the connection. -/
theorem Queued.request {codes : List (BitVec 16)} {tasks tasks' : List Igtask} {code : BitVec 16}
    {arg : Option CString} (hq : Queued codes tasks)
    (h : enqueueTaskById tasks code arg = some tasks') : Queued (codes ++ [code]) tasks' := by
  obtain ⟨task, hserves, hadded⟩ := enqueueTaskById_serves h
  have hsearch : (∀ cur ∈ tasks, cur.command ≠ searchedText) ↔
      commandCode IG_DEV_SENDSIZE ∉ codes := by
    rw [← hq.size]
    simp [commands]
  have hself : needsFeatures (commandCode IG_DEV_GETFEATURES) = false := by decide
  have hother : commandCode IG_DEV_GETFEATURES ≠ commandCode IG_DEV_SENDSIZE := by decide
  have hsize : commandCode IG_DEV_SENDSIZE ∈ codes ++ [code] ↔
      commandCode IG_DEV_SENDSIZE ∈ codes ∨ code = commandCode IG_DEV_SENDSIZE := by
    simp [eq_comm]
  simp only [hsearch] at hadded
  split_ifs at hadded with hadds
  · obtain ⟨sub, hsub, rfl⟩ := hadded
    obtain ⟨hneeds, hnone⟩ := hadds
    have hcode : code ≠ commandCode IG_DEV_GETFEATURES := by
      rintro rfl
      rw [hself] at hneeds
      cases hneeds
    constructor
    · rw [hserves.size_concat, hsub.size_concat, hq.size, hsize]
      simp [hother]
    · rw [hserves.features_concat, hsub.features_concat, Requested, Successive.any_concat]
      simp [hneeds, hnone]
    · rw [hserves.fetched_concat, hsub.fetched_concat, hsub.features_concat, hq.fetched, hq.features,
        RequestsFit, RequestsFit, Successive.all_concat]
      simp [hself, hcode, hneeds, hnone]
  · obtain rfl := hadded
    constructor
    · rw [hserves.size_concat, hq.size, hsize]
    · rw [hserves.features_concat, hq.features, Requested, Requested, Successive.any_concat,
        or_iff_left hadds]
    · have hsized : needsFeatures code = true → commandCode IG_DEV_SENDSIZE ∈ codes :=
        fun hneeds => Classical.not_not.mp (fun hnone => hadds ⟨hneeds, hnone⟩)
      have hneeds : (needsFeatures code = true → Requested codes) ↔
          (needsFeatures code = true →
            (commandCode IG_DEV_SENDSIZE ∈ codes ↔ Requested codes)) :=
        forall_congr' (fun hneeds => (iff_true_left (hsized hneeds)).symm)
      rw [hserves.fetched_concat, hq.fetched, hq.features, hneeds, RequestsFit, RequestsFit,
        Successive.all_concat]

/-- Requests with one argument, one after the other. -/
def enqueueAll (tasks : List Igtask) (codes : List (BitVec 16)) (arg : Option CString) :
    Option (List Igtask) :=
  codes.foldlM (fun tasks code => enqueueTaskById tasks code arg) tasks

theorem Queued.requests {arg : Option CString} {codes codes' : List (BitVec 16)}
    {tasks tasks' : List Igtask} (hq : Queued codes tasks)
    (h : enqueueAll tasks codes' arg = some tasks') : Queued (codes ++ codes') tasks' := by
  induction codes' generalizing codes tasks with
  | nil =>
      obtain rfl := Option.some.inj h
      rwa [List.append_nil]
  | cons code codes' ih =>
      obtain ⟨queued, hcode, hrest⟩ := Option.bind_eq_some_iff.mp h
      rw [List.append_cons]
      exact ih (hq.request hcode) hrest

/-- **An option** makes its requests. -/
theorem parseOption_requests {key : BitVec 32} {arg : Option CString} {s s' : Igclient} {known : Bool}
    (h : parseOption key arg s = some (s', known)) :
    enqueueAll s.tasks (requests key) arg = some s'.tasks := by
  have hsingle (tasks : List Igtask) (code : BitVec 16) :
      enqueueAll tasks [code] arg = enqueueTaskById tasks code arg := by
    simp [enqueueAll]
  rw [parseOption] at h
  rw [requests]
  split_ifs at h ⊢ with hcommand hoffset hresend hdevice
  · obtain ⟨tasks, htasks, heq⟩ := Option.map_eq_some_iff.mp h
    obtain ⟨rfl, -⟩ := Prod.mk.inj heq
    rw [hsingle, htasks]
  · obtain ⟨tasks, htasks, heq⟩ := Option.map_eq_some_iff.mp h
    obtain ⟨rfl, -⟩ := Prod.mk.inj heq
    obtain ⟨slept, hslept, hrest⟩ := Option.bind_eq_some_iff.mp htasks
    simp [enqueueAll, hslept, hrest]
  · obtain ⟨tasks, htasks, heq⟩ := Option.map_eq_some_iff.mp h
    obtain ⟨rfl, -⟩ := Prod.mk.inj heq
    rw [List.nil_append, hsingle]
    exact htasks
  · obtain ⟨device, -, heq⟩ := Option.map_eq_some_iff.mp h
    obtain ⟨rfl, -⟩ := Prod.mk.inj heq
    rfl
  · obtain ⟨rfl, -⟩ := Prod.mk.inj (Option.some.inj h)
    rfl

/-! ### The command line -/

/-- The codes that have a row. -/
def known (code : BitVec 16) : Bool := supportedCommands.any (fun spec => code == spec.code)

theorem enqueueCode_isSome {code : BitVec 16} (h : known code) (tasks : List Igtask)
    (arg : Option CString) : (enqueueCode tasks code arg).isSome := by
  rw [enqueueCode, Option.isSome_map, List.find?_isSome]
  exact List.any_eq_true.mp h

theorem enqueueTaskById_isSome {code : BitVec 16} (h : known code) (tasks : List Igtask)
    (arg : Option CString) : (enqueueTaskById tasks code arg).isSome := by
  have hfeatures : known (commandCode IG_DEV_GETFEATURES) := by decide
  rw [enqueueTaskById]
  split_ifs
  · obtain ⟨queued, hqueued⟩ := Option.isSome_iff_exists.mp (enqueueCode_isSome hfeatures tasks none)
    simp only [hqueued, Option.map_some, Option.bind_eq_bind, Option.bind_some]
    exact enqueueCode_isSome h _ arg
  · exact enqueueCode_isSome h _ arg

/-- **No option** ends the program. -/
theorem parseOption_isSome (option : ClientOption) (s : Igclient) :
    (parseOption option.key option.arg s).isSome := by
  have hcommands : commandKeys.all (fun key => known (key.setWidth 16)) := by decide
  have hoffsets : offsetKeys.all (fun key => known ((key - ARGP_OFFSET).setWidth 16)) := by decide
  have hsleep : known INTERNAL_SLEEP := by decide
  rw [parseOption]
  split_ifs with hcommand hoffset hresend hdevice
  · rw [Option.isSome_map]
    exact enqueueTaskById_isSome (List.all_eq_true.mp hcommands _ hcommand) _ _
  · obtain ⟨slept, hslept⟩ := Option.isSome_iff_exists.mp
      (enqueueTaskById_isSome hsleep s.tasks option.arg)
    rw [hslept, Option.isSome_map, Option.bind_some]
    exact enqueueTaskById_isSome (List.all_eq_true.mp hoffsets _ hoffset) _ _
  · rw [Option.isSome_map, Option.bind_some]
    exact enqueueTaskById_isSome (List.all_eq_true.mp hoffsets _ hoffset) _ _
  · rw [Option.isSome_map]
    exact option.valued hdevice
  · rfl

theorem Queued.parseOptions (options : List ClientOption) {codes : List (BitVec 16)} {s : Igclient}
    (hq : Queued codes s.tasks) : ∃ s', parseOptions options s = some s' ∧
      Queued (codes ++ options.flatMap (fun option => IguanaIR.requests option.key)) s'.tasks := by
  induction options generalizing codes s with
  | nil =>
      refine ⟨s, rfl, ?_⟩
      simpa using hq
  | cons option options ih =>
      obtain ⟨⟨s₁, known⟩, hfirst⟩ := Option.isSome_iff_exists.mp (parseOption_isSome option s)
      obtain ⟨s', hrest, hq'⟩ := ih (hq.requests (parseOption_requests hfirst))
      refine ⟨s', ?_, ?_⟩
      · rw [IguanaIR.parseOptions, List.foldlM_cons, hfirst]
        exact hrest
      · rwa [List.flatMap_cons, ← List.append_assoc]

/-- **Features are fetched before they are needed**, and not where they are queued already, exactly
when the requests fit. -/
theorem featuresFetched_iff (options : List ClientOption) :
    ∃ s, parseOptions options .start = some s ∧ (FeaturesFetched s.tasks ↔
      RequestsFit (options.flatMap (fun option => requests option.key))) := by
  have hstart : Queued [] Igclient.start.tasks := queued_start
  obtain ⟨s, hs, hq⟩ := hstart.parseOptions options
  exact ⟨s, hs, hq.fetched⟩

/-- `--encoded-size f --get-pins` -/
def sizeThenPins : List ClientOption :=
  [⟨ARGP_OFFSET + IG_DEV_SENDSIZE.setWidth 32, some (ascii "f"), by decide⟩,
    ⟨IG_DEV_GETPINS.setWidth 32, none, by decide⟩]

/-- `--get-pins --get-pins` -/
def pinsTwice : List ClientOption :=
  [⟨IG_DEV_GETPINS.setWidth 32, none, by decide⟩, ⟨IG_DEV_GETPINS.setWidth 32, none, by decide⟩]

/-- The features are not fetched for the first command line, and fetched twice for the second. -/
theorem features_not_fetched :
    (∃ s, parseOptions sizeThenPins .start = some s ∧
      commands s.tasks = [ascii "encoded size", ascii "get pins"] ∧ ¬ FeaturesFetched s.tasks) ∧
    ∃ s, parseOptions pinsTwice .start = some s ∧ commands s.tasks =
      [ascii "get features", ascii "get pins", ascii "get features", ascii "get pins"] ∧
        ¬ FeaturesFetched s.tasks := by
  constructor
  · refine ⟨_, rfl, by decide, fun h => ?_⟩
    have hpins := h [ascii "encoded size"] (ascii "get pins") [] (by decide)
    revert hpins
    decide
  · refine ⟨_, rfl, by decide, fun h => ?_⟩
    have hagain := h [ascii "get features", ascii "get pins"] (ascii "get features")
      [ascii "get pins"] (by decide)
    revert hagain
    decide

end IguanaIR
