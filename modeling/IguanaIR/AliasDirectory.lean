import IguanaIR.SocketNames

/-! # The socket directory

`createServerPipe`, `setAlias` and `closeServerPipe` of `pipes.c`, and what the worker of a device
does with them: it enters the list of devices, binds its socket, links its aliases in `getID`, runs
`getID` again after an `IG_DEV_SETID`, and takes everything down when it exits.  The workers run
side by side, so their steps come in any order; one step ends where the worker has to wait for its
device.

The directory of a daemon that has just started holds the control socket.  Every socket in it has
somebody listening, so that `createServerPipe` fails on a path that is taken. -/

namespace IguanaIR

/-! ### `pipes.c` -/

inductive DirEntry where
  | directory
  /-- The socket of a worker, or the control socket. -/
  | socket (id : Option ℕ)
  | link (target : CString)
deriving DecidableEq, Repr

/-- What stands under a path. -/
abbrev Directory := CString → Option DirEntry

/-- Names of directories, which no alias replaces. -/
def directoryNames : List CString := [[], ascii ".", ascii ".."]

namespace Directory

def set (dir : Directory) (path : CString) (entry : Option DirEntry) : Directory :=
  fun p => if p = path then entry else dir p

def start : Directory := fun path =>
  if path = socketName (ascii "ctl") then some (.socket none)
  else if (directoryNames.map (IGSOCK_NAME ++ ·)).contains path then some .directory
  else none

/-- The links of the system that `connect` follows, at most. -/
def MAXSYMLINKS : ℕ := 40

/-- The socket behind a path; the target of a link is a name in the directory. -/
def opens (dir : Directory) : ℕ → CString → Option (Option ℕ)
  | 0, _ => none
  | fuel + 1, path =>
      match dir path with
      | some (.socket id) => some id
      | some (.link target) => dir.opens fuel (IGSOCK_NAME ++ target)
      | _ => none

/-- The directory with the socket in it, and the address. -/
def createServerPipe (dir : Directory) (id : ℕ) : Option (Directory × CString) :=
  let path := socketName (decimal id)
  if dir path = none then some (dir.set path (some (.socket (some id))), path) else none

/-- Delete the links to `target`. -/
def deleteLinks (dir : Directory) (target : CString) : Directory := fun path =>
  if dir path = some (.link target) then none else dir path

/-- The path of an alias, in which slashes are bars. -/
def aliasPath (name : CString) : CString :=
  socketName (name.map (fun b => if b = 0x2F then 0x7C else b))

/-- A link that is there is replaced; `symlink` fails on everything else that is there. -/
def createLink (dir : Directory) (target name : CString) : Directory :=
  match dir (aliasPath name) with
  | none | some (.link _) => dir.set (aliasPath name) (some (.link target))
  | _ => dir

def setAlias (dir : Directory) (target : CString) (deleteAll : Bool) (name : Option CString) :
    Directory :=
  let dir := if deleteAll then dir.deleteLinks target else dir
  match name with
  | none => dir
  | some name => dir.createLink target name

def closeServerPipe (dir : Directory) (id : ℕ) : Directory := dir.set (socketName (decimal id)) none

end Directory

/-! ### The workers -/

inductive WorkerPc where
  /-- In the list of devices, before `createServerPipe`. -/
  | starting
  /-- About to call `getID`. -/
  | aliasing
  /-- In `getID`, with the location linked. -/
  | labelling
  | listening
  /-- Without a socket, before `removeItem`. -/
  | closed
deriving DecidableEq, Repr

structure DeviceWorker where
  names : Names
  location : Byte × Byte
  pc : WorkerPc
deriving DecidableEq, Repr

/-- The daemon's list of devices beside the directory. -/
structure Registry where
  devs : List DeviceWorker
  dir : Directory

/-- What becomes of the label in `getID`: it is not read, the device has none, or this one. -/
inductive LabelRead where
  | unread
  | failed
  | label (userAlias : CString)
deriving DecidableEq, Repr

inductive WorkerEvent where
  | insertItem (location : Byte × Byte)
  | createServerPipe
  | getID
  | readLabel (response : LabelRead)
  | setID
  | closeServerPipe
  | removeItem
deriving DecidableEq, Repr

namespace DeviceWorker

def afterBind (w : DeviceWorker) (addrStr : CString) : DeviceWorker :=
  { w with names := { w.names with addrStr := addrStr }, pc := .aliasing }

@[simp] theorem afterBind_id (w : DeviceWorker) (addrStr : CString) :
    (w.afterBind addrStr).names.id = w.names.id := rfl

@[simp] theorem afterBind_addrStr (w : DeviceWorker) (addrStr : CString) :
    (w.afterBind addrStr).names.addrStr = addrStr := rfl

def afterLocation (w : DeviceWorker) : DeviceWorker :=
  { w with names := { w.names with locAlias := some (locationAlias w.location) }, pc := .labelling }

def afterLabel (w : DeviceWorker) : LabelRead → DeviceWorker
  | .unread => { w with pc := .listening }
  | .failed => { w with names := { w.names with userAlias := none }, pc := .listening }
  | .label userAlias =>
      { w with names := { w.names with userAlias := some userAlias }, pc := .listening }

def goto (w : DeviceWorker) (pc : WorkerPc) : DeviceWorker := { w with pc := pc }

end DeviceWorker

namespace Registry

def start : Registry := ⟨[], .start⟩

def find (s : Registry) (id : ℕ) : Option DeviceWorker := s.devs.find? (·.names.id = id)

/-- The state in which the worker has become `w`. -/
def put (s : Registry) (w : DeviceWorker) : Registry :=
  { s with devs := s.devs.map (fun v => if v.names.id = w.names.id then w else v) }

def withDir (s : Registry) (dir : Directory) : Registry := { s with dir := dir }

/-- One step of the worker of device `id`; no two devices have one index. -/
def step (s : Registry) (id : ℕ) (e : WorkerEvent) : Option Registry :=
  match s.find id, e with
  | none, .insertItem location =>
      some { s with devs := s.devs ++ [⟨⟨id, [], none, none⟩, location, .starting⟩] }
  | some w, .createServerPipe =>
      if w.pc = .starting then
        match s.dir.createServerPipe id with
        | some (dir, addrStr) => some ((s.put (w.afterBind addrStr)).withDir dir)
        | none => some (s.put (w.goto .closed))
      else none
  | some w, .getID =>
      if w.pc = .aliasing then
        some ((s.put w.afterLocation).withDir
          (s.dir.setAlias (decimal id) true (some (locationAlias w.location))))
      else none
  | some w, .readLabel response =>
      if w.pc = .labelling then
        some ((s.put (w.afterLabel response)).withDir
          (match response with
            | .label userAlias => s.dir.setAlias (decimal id) false (some userAlias)
            | _ => s.dir))
      else none
  | some w, .setID => if w.pc = .listening then some (s.put (w.goto .aliasing)) else none
  | some w, .closeServerPipe =>
      if w.pc = .listening then
        some ((s.put (w.goto .closed)).withDir
          ((s.dir.setAlias (decimal id) true none).closeServerPipe id))
      else none
  | some w, .removeItem =>
      if w.pc = .closed then some { s with devs := s.devs.filter (·.names.id ≠ id) } else none
  | _, _ => none

def run (s : Registry) (es : List (ℕ × WorkerEvent)) : Option Registry :=
  es.foldlM (fun s e => s.step e.1 e.2) s

end Registry

/-! ### Registered devices -/

/-- The path is there because `createServerPipe` has bound it or `setAlias` has linked it. -/
def Directory.Made (dir : Directory) (path : CString) : Prop :=
  ∃ entry, dir path = some entry ∧ entry ≠ .directory

/-- The device that is reached through a path. -/
def Registry.reached (s : Registry) (path : CString) : Option Names :=
  ((s.dir.opens (Directory.MAXSYMLINKS + 1) path).join.bind s.find).map (·.names)

/-- `deviceAddress` has the address of what is reached, for every path of the directory. -/
def Registry.Agrees (s : Registry) : Prop :=
  ∀ path, s.dir.Made path →
    deviceAddress path (s.devs.map (·.names)) = some ((s.reached path).map (·.addrStr))

structure Registration where
  id : ℕ
  location : Byte × Byte
  label : Option CString
deriving DecidableEq, Repr

def DeviceWorker.registration (w : DeviceWorker) : Registration :=
  ⟨w.names.id, w.location, w.names.userAlias⟩

/-- These devices have been through `getID`, in some order, and there are no others. -/
def Registry.Registered (s : Registry) (devices : List Registration) : Prop :=
  (∀ w ∈ s.devs, w.pc = .listening) ∧ (s.devs.map DeviceWorker.registration).Perm devices

/-- The label is a file name of its own: no full path, not the control socket, and neither the
index nor the location of another device.  Two devices share it only if it makes no link. -/
def OwnLabel (devices : List Registration) (d : Registration) (label : CString) : Prop :=
  0x2F ∉ label ∧ label ≠ ascii "ctl" ∧ ∀ e ∈ devices, e ≠ d →
    label ≠ decimal e.id ∧ label ≠ locationAlias e.location ∧
      (e.label = some label → label ∈ directoryNames)

def OwnLabels (devices : List Registration) : Prop :=
  ∀ d ∈ devices, ∀ label ∈ d.label, OwnLabel devices d label

end IguanaIR
