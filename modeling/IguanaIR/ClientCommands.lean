import IguanaIR.PulseFile

/-! # The commands of igclient

The table `supportedCommands` of `client.c`, the tasks that name its rows, and `parseNumber`, which
reads the arguments of some of them with the parts of `sscanf` that it uses.

A code is the `unsigned short` of the table: a code of the device protocol, or one with an upper
byte for a task that the client handles by itself. -/

namespace IguanaIR

/-! ### Codes -/

def INTERNAL_SLEEP : BitVec 16 := 0x100

def INTERNAL_GETCONFIG : BitVec 16 := 0x110
def INTERNAL_GETOUTPINS : BitVec 16 := 0x111
def INTERNAL_GETPULLPINS : BitVec 16 := 0x112
def INTERNAL_GETOPENPINS : BitVec 16 := 0x113
def INTERNAL_GETSINKPINS : BitVec 16 := 0x114
def INTERNAL_GETHOLDPINS : BitVec 16 := 0x115

def INTERNAL_SETCONFIG : BitVec 16 := 0x120
def INTERNAL_SETOUTPINS : BitVec 16 := 0x121
def INTERNAL_SETPULLPINS : BitVec 16 := 0x122
def INTERNAL_SETOPENPINS : BitVec 16 := 0x123
def INTERNAL_SETSINKPINS : BitVec 16 := 0x124
def INTERNAL_SETHOLDPINS : BitVec 16 := 0x125

def FINAL_CHECK : BitVec 16 := 0xFFFF

/-- The settings of a pin. -/
def IG_OUTPUT : Byte := 1
def IG_PULLUP : Byte := 2
def IG_OPEN_DRAIN : Byte := 4
def IG_HIGH_SINK : Byte := 8
def IG_THRESHOLD : Byte := 16

/-- A code of the device protocol as the `unsigned short` of the table. -/
def commandCode (code : Byte) : BitVec 16 := code.setWidth 16

/-! ### The table -/

structure CommandSpec where
  text : CString
  internal : Bool
  code : BitVec 16
  bit : Byte
  parsePins : Bool
deriving DecidableEq, Repr

def supportedCommands : List CommandSpec :=
  [⟨ascii "final check", false, FINAL_CHECK, 0, false⟩,

   ⟨ascii "all devices", false, commandCode IG_CTL_LISTDEVS, 0, false⟩,
   ⟨ascii "device address", false, commandCode IG_CTL_DEVADDR, 0, false⟩,

   ⟨ascii "get version", false, commandCode IG_DEV_GETVERSION, 0, false⟩,
   ⟨ascii "write block", false, commandCode IG_DEV_WRITEBLOCK, 0, false⟩,
   ⟨ascii "checksum block", false, commandCode IG_DEV_WRITEBLOCK, 0, false⟩,
   ⟨ascii "reset", false, commandCode IG_DEV_RESET, 0, false⟩,

   ⟨ascii "get features", false, commandCode IG_DEV_GETFEATURES, 0, false⟩,
   ⟨ascii "get buffer size", false, commandCode IG_DEV_GETBUFSIZE, 0, false⟩,
   ⟨ascii "receiver on", false, commandCode IG_DEV_RECVON, 0, false⟩,
   ⟨ascii "raw receiver on", false, commandCode IG_DEV_RAWRECVON, 0, false⟩,
   ⟨ascii "receiver off", false, commandCode IG_DEV_RECVOFF, 0, false⟩,
   ⟨ascii "send", false, commandCode IG_DEV_SEND, 0, false⟩,
   ⟨ascii "resend", false, commandCode IG_DEV_RESEND, 0, false⟩,
   ⟨ascii "all aliases", false, commandCode IG_DEV_LISTALIASES, 0, false⟩,
   ⟨ascii "get address", false, commandCode IG_DEV_GETADDRESS, 0, false⟩,
   ⟨ascii "encoded size", false, commandCode IG_DEV_SENDSIZE, 0, false⟩,
   ⟨ascii "get channels", false, commandCode IG_DEV_GETCHANNELS, 0, false⟩,
   ⟨ascii "set channels", false, commandCode IG_DEV_SETCHANNELS, 0, true⟩,
   ⟨ascii "get carrier", false, commandCode IG_DEV_GETCARRIER, 0, false⟩,
   ⟨ascii "set carrier", false, commandCode IG_DEV_SETCARRIER, 0, false⟩,

   ⟨ascii "get pin config", false, commandCode IG_DEV_GETPINCONFIG, 0, false⟩,
   ⟨ascii "get config 0", false, commandCode IG_DEV_GETCONFIG0, 0, false⟩,
   ⟨ascii "get config 1", false, commandCode IG_DEV_GETCONFIG1, 0, false⟩,
   ⟨ascii "set pin config", false, commandCode IG_DEV_SETPINCONFIG, 0, false⟩,
   ⟨ascii "set config 0", false, commandCode IG_DEV_SETCONFIG0, 0, false⟩,
   ⟨ascii "set config 1", false, commandCode IG_DEV_SETCONFIG1, 0, false⟩,

   ⟨ascii "get pins", false, commandCode IG_DEV_GETPINS, 0, false⟩,
   ⟨ascii "set pins", false, commandCode IG_DEV_SETPINS, 0, true⟩,
   ⟨ascii "pin burst", false, commandCode IG_DEV_PINBURST, 0, false⟩,
   ⟨ascii "execute code", false, commandCode IG_DEV_EXECUTE, 0, false⟩,
   ⟨ascii "get id", false, commandCode IG_DEV_GETID, 0, false⟩,
   ⟨ascii "set id", false, commandCode IG_DEV_SETID, 0, false⟩,
   ⟨ascii "get location", false, commandCode IG_DEV_GETLOCATION, 0, false⟩,
   ⟨ascii "repeater on", false, commandCode IG_DEV_REPEATER, 0, false⟩,

   ⟨ascii "get output pins", true, INTERNAL_GETOUTPINS, IG_OUTPUT, false⟩,
   ⟨ascii "set output pins", true, INTERNAL_SETOUTPINS, IG_OUTPUT, true⟩,
   ⟨ascii "get pullup pins", true, INTERNAL_GETPULLPINS, IG_PULLUP, false⟩,
   ⟨ascii "set pullup pins", true, INTERNAL_SETPULLPINS, IG_PULLUP, true⟩,
   ⟨ascii "get open drain pins", true, INTERNAL_GETOPENPINS, IG_OPEN_DRAIN, false⟩,
   ⟨ascii "set open drain pins", true, INTERNAL_SETOPENPINS, IG_OPEN_DRAIN, true⟩,
   ⟨ascii "get high sink pins", true, INTERNAL_GETSINKPINS, IG_HIGH_SINK, false⟩,
   ⟨ascii "set high sink pins", true, INTERNAL_SETSINKPINS, IG_HIGH_SINK, true⟩,
   ⟨ascii "get threshold pins", true, INTERNAL_GETHOLDPINS, IG_THRESHOLD, false⟩,
   ⟨ascii "set threshold pins", true, INTERNAL_SETHOLDPINS, IG_THRESHOLD, true⟩,

   ⟨ascii "sleep", true, INTERNAL_SLEEP, 0, false⟩]

/-! ### Tasks -/

/-- A task of the list; `spec` is populated when it is checked. -/
structure Igtask where
  command : CString
  arg : Option CString
  spec : Option CommandSpec
  isSubTask : Bool
deriving DecidableEq, Repr

/-- The row whose text begins with the command, if it is the only one. -/
def findTaskSpec (command : CString) : Option CommandSpec :=
  match supportedCommands.filter (fun spec => command.isPrefixOf spec.text) with
  | [spec] => some spec
  | _ => none

/-- **Every row is found** by its own text, so no text is the beginning of another one. -/
theorem findTaskSpec_text : ∀ spec ∈ supportedCommands, findTaskSpec spec.text = some spec := by
  decide

/-! ### Numbers -/

def isHexadecimal (b : Byte) : Bool :=
  isDecimal b || (0x41 ≤ b && b ≤ 0x46) || (0x61 ≤ b && b ≤ 0x66)

/-- The value of a digit. -/
def digitValue (b : Byte) : ℕ :=
  if isDecimal b then b.toNat - 0x30 else if b ≤ 0x46 then b.toNat - 0x37 else b.toNat - 0x57

/-- The `unsigned long` of 64 bits that a row of digits has, with its sign, as an `unsigned int`. -/
def unsignedOf (base : ℕ) (negative : Bool) (digits : List Byte) : BitVec 32 :=
  let n := digits.foldl (fun n b => base * n + digitValue b) 0
  if 2 ^ 64 ≤ n then BitVec.ofNat 32 (2 ^ 64 - 1)
  else if negative then - BitVec.ofNat 32 n
  else BitVec.ofNat 32 n

/-- Digits up to the end of the string: a character behind them would be one for `%c`. -/
def scanAll (base : ℕ) (isDigit : Byte → Bool) (negative : Bool) (s : List Byte) :
    Option (BitVec 32) :=
  if s ≠ [] ∧ s.all isDigit then some (unsignedOf base negative s) else none

/-- An optional sign, behind blanks. -/
def scanSign (s : List Byte) : Bool × List Byte :=
  match s.dropWhile isspace with
  | [] => (false, [])
  | b :: rest =>
      if b = 0x2D then (true, rest) else if b = 0x2B then (false, rest) else (false, b :: rest)

/-- `%u` to the end of the string. -/
def scanUnsigned (s : List Byte) : Option (BitVec 32) :=
  scanAll 10 isDecimal (scanSign s).1 (scanSign s).2

/-- `0x` may stand in front of the digits. -/
def dropHexPrefix : List Byte → List Byte
  | 0x30 :: 0x78 :: rest | 0x30 :: 0x58 :: rest => rest
  | s => s

/-- `%x` to the end of the string. -/
def scanHexadecimal (s : List Byte) : Option (BitVec 32) :=
  scanAll 16 isHexadecimal (scanSign s).1 (dropHexPrefix (scanSign s).2)

/-- The digits behind a `b`. -/
def scanBinary (s : List Byte) : Option (BitVec 32) :=
  s.foldlM (fun (value : BitVec 32) (c : Byte) =>
    if c ≠ 0x30 ∧ c ≠ 0x31 then none else some ((value <<< 1) + c.setWidth 32 - 0x30)) 0

def parseNumber (text : CString) : Option (BitVec 32) :=
  let hexadecimal := if (ascii "0x").isPrefixOf text then scanHexadecimal (text.drop 2) else none
  match hexadecimal.or (scanUnsigned text) with
  | some value => some value
  | none => if text.head? = some 0x62 then scanBinary (text.drop 1) else none

example : parseNumber (ascii "b101") = some 5 ∧ parseNumber (ascii "0x1F") = some 0x1F ∧
    parseNumber (ascii "-1") = some 0xFFFFFFFF ∧ parseNumber (ascii "7 ") = none := by decide

end IguanaIR
