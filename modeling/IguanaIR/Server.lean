import IguanaIR.DataPacket

/-! # The daemon's devices by name

The summaries and the address lookup of `server.c`, and `socketName` of `pipes.c`.

A C string is the list of its bytes without the null that ends it.  `PATH_MAX` is not modelled:
addresses and aliases are far shorter.  The other workers change the list of devices under
`devsLock`; here it is the list as one client's request finds it. -/

namespace IguanaIR

/-- A C string without its null. -/
abbrev CString := List Byte

/-- The string at the start of a block, or undefined when the block has no null. -/
def cString : List Byte → Option CString
  | [] => none
  | b :: rest => if b = 0 then some [] else (cString rest).map (b :: ·)

def ascii (s : String) : CString := s.toList.map (fun c => BitVec.ofNat 8 c.toNat)

/-- `sprintf` with `%d`. -/
def decimal (n : ℕ) : CString := ascii (toString n)

/-- The string as it is stored. -/
def CString.block (s : CString) : List Byte := s ++ [0]

/-- What an `iguanaDev` is known by. -/
structure Names where
  id : ℕ
  addrStr : CString
  locAlias : Option CString
  userAlias : Option CString
deriving DecidableEq, Repr

/-- The settings shared by all workers, with the devices as a request finds them. -/
structure Server where
  readLabels : Bool
  devs : List Names
deriving DecidableEq, Repr

def aliasSummary (idev : Names) : CString :=
  ascii "i:" ++ decimal idev.id ++
    (match idev.locAlias with | none => [] | some locAlias => ascii ",l:" ++ locAlias) ++
    (match idev.userAlias with | none => [] | some userAlias => ascii ",u:" ++ userAlias)

/-- `NULL` without devices, else the summaries with bars between them. -/
def deviceSummary (server : Server) : Option CString :=
  match server.devs with
  | [] => none
  | idev :: devs => some (devs.foldl (fun buf d => buf ++ ascii "|" ++ aliasSummary d)
      (aliasSummary idev))

def IGSOCK_NAME : CString := ascii "/var/run/iguanaIR/"

def socketName (name : CString) : CString :=
  if ascii "/" ⊆ name then name else IGSOCK_NAME ++ name

/-- Is the device meant by `name`?  A device without a location alias is compared through a
`NULL`. -/
def findAddress (name : CString) (idev : Names) : Option Bool :=
  if socketName (decimal idev.id) = name then some true
  else match idev.locAlias with
    | none => none
    | some locAlias =>
        if locAlias = name ∨ socketName locAlias = name then some true
        else match idev.userAlias with
          | none => some false
          | some userAlias => some (decide (userAlias = name ∨ socketName userAlias = name))

/-- The address of the first device meant by `name`, `some none` being `NULL`. -/
def deviceAddress (name : CString) : List Names → Option (Option CString)
  | [] => some none
  | idev :: devs =>
      match findAddress name idev with
      | none => none
      | some true => some (some idev.addrStr)
      | some false => deviceAddress name devs

end IguanaIR
