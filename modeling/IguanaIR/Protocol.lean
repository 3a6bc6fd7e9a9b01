import Mathlib.Data.Bool.AllAny
import Mathlib.Data.List.Basic
import Mathlib.Data.Nat.Notation
import Mathlib.Data.Int.Notation
import Mathlib.Tactic.SplitIfs
import Mathlib.Tactic.Tauto

/-! # The client and device protocols

The packet codes of `iguanaIR.h`, the table `types` of `device-interface.c` with its two
readers `findTypeEntry` and `payloadMatch`, and the code translation of
`protocol-versions.c`.

Codes travel as single bytes that a client or a device may set to anything, so a code is a
`Byte` and not an enumeration.  A version is the `uint16_t` of the source.  The sizes
`outData` and `inData` of a table row are the C `int`s of the row; `NO_PAYLOAD` and
`ANY_PAYLOAD` are the two values with a meaning of their own. -/

namespace IguanaIR

/-- An `unsigned char`. -/
abbrev Byte := BitVec 8

/-- A `uint16_t` protocol or device version. -/
abbrev Version := BitVec 16

/-! ### Packet codes -/

def IG_PROTOCOL_VERSION : Version := 1

def IG_EXCH_VERSIONS : Byte := 0xFE
def IG_CTL_LISTDEVS : Byte := 0x80
def IG_CTL_DEVADDR : Byte := 0x81
def IG_DEV_ERROR : Byte := 0x00
def IG_DEV_GETVERSION : Byte := 0x01
def IG_DEV_WRITEBLOCK : Byte := 0x02
def IG_DEV_CHECKSUM : Byte := 0x03
def IG_DEV_INVALID_ARG : Byte := 0x04
def IG_DEV_BAD_CHKSUM : Byte := 0x05
def IG_DEV_NOUSB : Byte := 0x06
def IG_DEV_RESET : Byte := 0xFF
def IG_DEV_GETFEATURES : Byte := 0x10
def IG_DEV_GETBUFSIZE : Byte := 0x11
def IG_DEV_RECVON : Byte := 0x12
def IG_DEV_RAWRECVON : Byte := 0x13
def IG_DEV_RECVOFF : Byte := 0x14
def IG_DEV_SEND : Byte := 0x15
def IG_DEV_GETCHANNELS : Byte := 0x16
def IG_DEV_SETCHANNELS : Byte := 0x17
def IG_DEV_GETCARRIER : Byte := 0x18
def IG_DEV_SETCARRIER : Byte := 0x19
def IG_DEV_GETPINCONFIG : Byte := 0x1A
def IG_DEV_SETPINCONFIG : Byte := 0x1B
def IG_DEV_GETPINS : Byte := 0x1C
def IG_DEV_SETPINS : Byte := 0x1D
def IG_DEV_PINBURST : Byte := 0x1E
def IG_DEV_EXECUTE : Byte := 0x1F
def IG_DEV_GETID : Byte := 0x20
def IG_DEV_SETID : Byte := 0x21
def IG_DEV_IDSOFF : Byte := 0x22
def IG_DEV_IDSON : Byte := 0x23
def IG_DEV_IDSTATE : Byte := 0x24
def IG_DEV_REPEATER : Byte := 0x25
def IG_DEV_GETLOCATION : Byte := 0x26
def IG_DEV_RESEND : Byte := 0x27
def IG_DEV_SENDSIZE : Byte := 0x28
def IG_DEV_LISTALIASES : Byte := 0x29
def IG_DEV_GETADDRESS : Byte := 0x2A
def IG_DEV_RECV : Byte := 0x30
def IG_DEV_OVERRECV : Byte := 0x31
def IG_DEV_OVERSEND : Byte := 0x32
def IG_DEV_GETCONFIG0 : Byte := 0x07
def IG_DEV_SETCONFIG0 : Byte := 0x08
def IG_DEV_GETCONFIG1 : Byte := 0x09
def IG_DEV_SETCONFIG1 : Byte := 0x0A

/-- For interpreting codes. -/
def IG_PULSE_BIT : BitVec 32 := 0x01000000
def IG_PULSE_MASK : BitVec 32 := 0x00FFFFFF

/-- The body sits in a slot device. -/
def IG_SLOT_DEV : Byte := 0x10

/-! ### Internal constants of the device protocol -/

def MAX_PACKET_SIZE : ℕ := 8
def MIN_CTL_LENGTH : ℕ := 4
def CODE_OFFSET : ℕ := 3

def CTL_START : Byte := 0x00
def CTL_TODEV : Byte := 0xCD
def CTL_FROMDEV : Byte := 0xDC

def NO_PAYLOAD : ℕ := 0xFF
def ANY_PAYLOAD : ℕ := 0x00

/-- Masks for the signal bytes of the device. -/
def STATE_MASK : Byte := 0x80
def LENGTH_MASK : Byte := 0x7F
def UNKNOWN_FEATURES : Byte := 0xFF

/-! ### The table of packet types -/

structure PacketType where
  code : Byte
  direction : Byte
  outData : ℕ
  ack : Bool
  inData : ℕ
deriving DecidableEq, Repr

/-- A row of `types`: the packet type and the device versions `start` to `stop` it holds
for, where `stop = 0` stands for no upper limit. -/
structure VersionedType where
  start : ℕ
  stop : ℕ
  type : PacketType
deriving DecidableEq, Repr

/-- The table without its terminating row. -/
def types : List VersionedType := [
  -- exchanging the versions of the client and server
  ⟨0, 0, ⟨IG_EXCH_VERSIONS, CTL_TODEV, 2, true, 2⟩⟩,
  -- daemon ctl functionality
  ⟨1, 1, ⟨IG_CTL_LISTDEVS, CTL_TODEV, NO_PAYLOAD, true, ANY_PAYLOAD⟩⟩,
  ⟨1, 1, ⟨IG_CTL_DEVADDR, CTL_TODEV, ANY_PAYLOAD, true, ANY_PAYLOAD⟩⟩,
  -- device functionality
  ⟨0, 0, ⟨IG_DEV_GETVERSION, CTL_TODEV, NO_PAYLOAD, true, 2⟩⟩,
  ⟨0x101, 0x203, ⟨IG_DEV_GETFEATURES, CTL_TODEV, NO_PAYLOAD, true, 1⟩⟩,
  ⟨0x204, 0, ⟨IG_DEV_GETFEATURES, CTL_TODEV, NO_PAYLOAD, true, 2⟩⟩,
  ⟨0, 0, ⟨IG_DEV_SEND, CTL_TODEV, ANY_PAYLOAD, true, NO_PAYLOAD⟩⟩,
  ⟨0x309, 0, ⟨IG_DEV_RESEND, CTL_TODEV, NO_PAYLOAD, true, NO_PAYLOAD⟩⟩,
  ⟨0, 0, ⟨IG_DEV_LISTALIASES, CTL_TODEV, NO_PAYLOAD, true, ANY_PAYLOAD⟩⟩,
  ⟨0, 0, ⟨IG_DEV_GETADDRESS, CTL_TODEV, NO_PAYLOAD, true, ANY_PAYLOAD⟩⟩,
  ⟨0, 0, ⟨IG_DEV_SENDSIZE, CTL_TODEV, ANY_PAYLOAD, true, 2⟩⟩,
  ⟨0, 0, ⟨IG_DEV_RECVON, CTL_TODEV, NO_PAYLOAD, true, NO_PAYLOAD⟩⟩,
  ⟨0x101, 0, ⟨IG_DEV_RAWRECVON, CTL_TODEV, NO_PAYLOAD, true, NO_PAYLOAD⟩⟩,
  ⟨0, 0, ⟨IG_DEV_RECVOFF, CTL_TODEV, NO_PAYLOAD, true, NO_PAYLOAD⟩⟩,
  -- 1 bit per pin of state
  ⟨0, 0x003, ⟨IG_DEV_GETPINS, CTL_TODEV, NO_PAYLOAD, true, 2⟩⟩,
  ⟨0x101, 0, ⟨IG_DEV_GETPINS, CTL_TODEV, NO_PAYLOAD, true, 2⟩⟩,
  ⟨0, 0x003, ⟨IG_DEV_SETPINS, CTL_TODEV, 2, true, NO_PAYLOAD⟩⟩,
  ⟨0x101, 0, ⟨IG_DEV_SETPINS, CTL_TODEV, 2, true, NO_PAYLOAD⟩⟩,
  -- 1 byte per pin, in the register format
  ⟨0, 0x003, ⟨IG_DEV_GETPINCONFIG, CTL_TODEV, NO_PAYLOAD, true, 8⟩⟩,
  ⟨0, 0x003, ⟨IG_DEV_SETPINCONFIG, CTL_TODEV, 8, true, NO_PAYLOAD⟩⟩,
  ⟨0x101, 0, ⟨IG_DEV_GETPINCONFIG, CTL_TODEV, NO_PAYLOAD, true, 8⟩⟩,
  ⟨0x101, 0, ⟨IG_DEV_SETPINCONFIG, CTL_TODEV, 8, true, NO_PAYLOAD⟩⟩,
  ⟨0, 0x003, ⟨IG_DEV_GETCONFIG0, CTL_TODEV, NO_PAYLOAD, true, 4⟩⟩,
  ⟨0, 0x003, ⟨IG_DEV_SETCONFIG0, CTL_TODEV, 4, true, NO_PAYLOAD⟩⟩,
  ⟨0, 0x003, ⟨IG_DEV_GETCONFIG1, CTL_TODEV, NO_PAYLOAD, true, 4⟩⟩,
  ⟨0, 0x003, ⟨IG_DEV_SETCONFIG1, CTL_TODEV, 4, true, NO_PAYLOAD⟩⟩,
  -- supporting functions
  ⟨0, 0, ⟨IG_DEV_GETBUFSIZE, CTL_TODEV, NO_PAYLOAD, true, 1⟩⟩,
  ⟨0, 0x1FF, ⟨IG_DEV_WRITEBLOCK, CTL_TODEV, 68, true, NO_PAYLOAD⟩⟩,
  ⟨0x200, 0, ⟨IG_DEV_WRITEBLOCK, CTL_TODEV, 68, true, 2⟩⟩,
  ⟨0x200, 0, ⟨IG_DEV_CHECKSUM, CTL_TODEV, 1, true, 2⟩⟩,
  ⟨0, 0, ⟨IG_DEV_EXECUTE, CTL_TODEV, NO_PAYLOAD, false, NO_PAYLOAD⟩⟩,
  ⟨0x002, 0x002, ⟨IG_DEV_PINBURST, CTL_TODEV, 64, true, NO_PAYLOAD⟩⟩,
  ⟨0x003, 0, ⟨IG_DEV_PINBURST, CTL_TODEV, ANY_PAYLOAD, true, NO_PAYLOAD⟩⟩,
  ⟨0, 0, ⟨IG_DEV_GETID, CTL_TODEV, NO_PAYLOAD, true, 12⟩⟩,
  ⟨0, 0x1FF, ⟨IG_DEV_SETID, CTL_TODEV, ANY_PAYLOAD, true, NO_PAYLOAD⟩⟩,
  ⟨0x200, 0, ⟨IG_DEV_SETID, CTL_TODEV, ANY_PAYLOAD, true, 2⟩⟩,
  ⟨0, 0, ⟨IG_DEV_IDSOFF, CTL_TODEV, NO_PAYLOAD, true, NO_PAYLOAD⟩⟩,
  ⟨0, 0, ⟨IG_DEV_IDSON, CTL_TODEV, NO_PAYLOAD, true, NO_PAYLOAD⟩⟩,
  ⟨0, 0, ⟨IG_DEV_IDSTATE, CTL_TODEV, NO_PAYLOAD, true, 1⟩⟩,
  ⟨0x306, 0, ⟨IG_DEV_REPEATER, CTL_TODEV, NO_PAYLOAD, true, NO_PAYLOAD⟩⟩,
  ⟨0, 0, ⟨IG_DEV_RESET, CTL_TODEV, NO_PAYLOAD, false, NO_PAYLOAD⟩⟩,
  ⟨4, 0, ⟨IG_DEV_GETCHANNELS, CTL_TODEV, NO_PAYLOAD, true, 1⟩⟩,
  ⟨3, 3, ⟨IG_DEV_SETCHANNELS, CTL_TODEV, 1, true, NO_PAYLOAD⟩⟩,
  ⟨4, 0, ⟨IG_DEV_SETCHANNELS, CTL_TODEV, 1, true, NO_PAYLOAD⟩⟩,
  ⟨0x101, 0, ⟨IG_DEV_GETCARRIER, CTL_TODEV, NO_PAYLOAD, true, 4⟩⟩,
  ⟨0x101, 0, ⟨IG_DEV_SETCARRIER, CTL_TODEV, 4, true, 4⟩⟩,
  ⟨0, 0, ⟨IG_DEV_GETLOCATION, CTL_TODEV, NO_PAYLOAD, true, 2⟩⟩,
  -- "from device" codes
  ⟨0, 0, ⟨IG_DEV_RECV, CTL_FROMDEV, NO_PAYLOAD, false, ANY_PAYLOAD⟩⟩,
  ⟨0, 0, ⟨IG_DEV_OVERSEND, CTL_FROMDEV, NO_PAYLOAD, false, NO_PAYLOAD⟩⟩,
  ⟨0, 0, ⟨IG_DEV_OVERRECV, CTL_FROMDEV, NO_PAYLOAD, false, ANY_PAYLOAD⟩⟩,
  -- invalid argument reply
  ⟨0x101, 0, ⟨IG_DEV_INVALID_ARG, CTL_TODEV, NO_PAYLOAD, false, NO_PAYLOAD⟩⟩]

/-- Does the row hold for this code in this version? -/
def VersionedType.covers (t : VersionedType) (code : Byte) (version : Version) : Bool :=
  t.type.code == code && decide (t.start ≤ version.toNat) &&
    (decide (version.toNat ≤ t.stop) || t.stop == 0)

/-- The first row for the code and version; `none` is the `NULL` of the source. -/
def findTypeEntry (code : Byte) (version : Version) : Option PacketType :=
  (types.find? (·.covers code version)).map (·.type)

/-- The rows of a code decide, by their versions. -/
theorem findTypeEntry_rows (code : Byte) (version : Version) :
    findTypeEntry code version = ((types.filter (·.type.code == code)).find? (fun t =>
      decide (t.start ≤ version.toNat) && (decide (version.toNat ≤ t.stop) || t.stop == 0))).map
        (·.type) := by
  rw [List.find?_filter, findTypeEntry]
  congr 2
  funext t
  rw [VersionedType.covers, Bool.and_assoc, Bool.decide_and, Bool.decide_eq_true,
    Bool.decide_eq_true]

/-- A code with one row, for all versions. -/
theorem findTypeEntry_single {code : Byte} {type : PacketType}
    (hrows : types.filter (·.type.code == code) = [⟨0, 0, type⟩]) (version : Version) :
    findTypeEntry code version = some type := by
  rw [findTypeEntry_rows, hrows, List.find?_cons_of_pos]
  · rfl
  · simp

theorem findTypeEntry_recv (version : Version) :
    findTypeEntry IG_DEV_RECV version =
      some ⟨IG_DEV_RECV, CTL_FROMDEV, NO_PAYLOAD, false, ANY_PAYLOAD⟩ :=
  findTypeEntry_single (by decide) version

def payloadMatch (spec length : Byte) : Bool :=
  (spec == BitVec.ofNat 8 NO_PAYLOAD && length == 0) || spec == BitVec.ofNat 8 ANY_PAYLOAD ||
    spec == length

/-- The comparison is one of the lengths modulo 256. -/
theorem payloadMatch_iff {size : ℕ} {length : ℤ} (h : size ≤ NO_PAYLOAD) :
    payloadMatch (BitVec.ofNat 8 size) (BitVec.ofInt 8 length) = true ↔
      (size = NO_PAYLOAD ∧ length % 256 = 0) ∨ size = ANY_PAYLOAD ∨ length % 256 = size := by
  unfold NO_PAYLOAD at h
  have hlen : (BitVec.ofInt 8 length).toNat = (length % 256).toNat := BitVec.toNat_ofInt ..
  have hnonneg := Int.emod_nonneg length (by decide : (256 : ℤ) ≠ 0)
  have hlt := Int.emod_lt_of_pos length (by decide : (0 : ℤ) < 256)
  simp only [payloadMatch, NO_PAYLOAD, ANY_PAYLOAD, Bool.or_eq_true, Bool.and_eq_true, beq_iff_eq,
    ← BitVec.toNat_inj, BitVec.toNat_ofNat, hlen, Nat.mod_eq_of_lt (by omega : size < 2 ^ 8)]
  simp only [BitVec.ofNat_eq_ofNat, BitVec.toNat_ofNat, Nat.reducePow, Nat.reduceMod]
  omega

theorem findTypeEntry_some {code : Byte} {version : Version} {type : PacketType}
    (h : findTypeEntry code version = some type) :
    type.code = code ∧ ∃ t ∈ types, t.type = type := by
  simp only [findTypeEntry, Option.map_eq_some_iff] at h
  obtain ⟨t, ht, rfl⟩ := h
  have hc := List.find?_some ht
  simp only [VersionedType.covers, Bool.and_eq_true, beq_iff_eq] at hc
  exact ⟨hc.1.1, t, List.mem_of_find?_eq_some ht, rfl⟩

/-- Every size of the table fits the byte that `payloadMatch` compares. -/
theorem types_outData_le : ∀ t ∈ types, t.type.outData ≤ NO_PAYLOAD := by decide

theorem findTypeEntry_outData_le {code : Byte} {version : Version} {type : PacketType}
    (h : findTypeEntry code version = some type) : type.outData ≤ NO_PAYLOAD := by
  obtain ⟨_, t, ht, rfl⟩ := findTypeEntry_some h
  exact types_outData_le t ht

/-! ### Code translation -/

/-- "To device" code translations for protocol v0, without the row of `IG_DEV_RESET` that
ends the list. -/
def codeMap0 : List (Byte × Byte) := [
  (IG_DEV_ERROR, 0x00), (IG_DEV_GETVERSION, 0x01), (IG_DEV_SEND, 0x02), (IG_DEV_RECVON, 0x03),
  (IG_DEV_RECVOFF, 0x04), (IG_DEV_GETPINS, 0x05), (IG_DEV_SETPINS, 0x06),
  (IG_DEV_GETCONFIG0, 0x07), (IG_DEV_SETCONFIG0, 0x08), (IG_DEV_GETCONFIG1, 0x09),
  (IG_DEV_SETCONFIG1, 0x0A), (IG_DEV_GETBUFSIZE, 0x0B), (IG_DEV_WRITEBLOCK, 0x0C),
  (IG_DEV_EXECUTE, 0x0D), (IG_DEV_PINBURST, 0x0E), (IG_DEV_GETID, 0x0F),
  (IG_DEV_SETCHANNELS, 0x11), (IG_DEV_RECV, 0x10), (IG_DEV_OVERRECV, 0x20),
  (IG_DEV_OVERSEND, 0x30)]

/-- The translated code, or `none` where the source returns `false` and leaves the code
alone.  Version 0 is the only one below `IG_PROTOCOL_VERSION`, so `codeMaps` has one map. -/
def translateProtocol (code : Byte) (protocolVersion : Version) (toVersion : Bool) :
    Option Byte :=
  if protocolVersion = IG_PROTOCOL_VERSION ∨ code = IG_EXCH_VERSIONS then some code
  else if IG_PROTOCOL_VERSION < protocolVersion then none
  else if toVersion then (codeMap0.find? (·.1 == code)).map (·.2)
  else (codeMap0.find? (·.2 == code)).map (·.1)

/-- Devices up to version 4 speak protocol 0. -/
def translateDevice (code : Byte) (deviceVersion : Version) (toVersion : Bool) : Option Byte :=
  translateProtocol code (if deviceVersion ≤ 4 then 0 else IG_PROTOCOL_VERSION) toVersion

@[simp] theorem translateProtocol_current (code : Byte) (toVersion : Bool) :
    translateProtocol code IG_PROTOCOL_VERSION toVersion = some code := by
  simp [translateProtocol]

@[simp] theorem translateProtocol_exch (version : Version) (toVersion : Bool) :
    translateProtocol IG_EXCH_VERSIONS version toVersion = some IG_EXCH_VERSIONS := by
  simp [translateProtocol]

/-- The three kinds of client version: the current one, version 0, and the unknown ones. -/
theorem version_cases (v : Version) : v = IG_PROTOCOL_VERSION ∨ v = 0 ∨ IG_PROTOCOL_VERSION < v := by
  unfold IG_PROTOCOL_VERSION
  bv_omega

theorem translateProtocol_unknown {version : Version} (hv : IG_PROTOCOL_VERSION < version)
    (code : Byte) (toVersion : Bool) (hc : code ≠ IG_EXCH_VERSIONS) :
    translateProtocol code version toVersion = none := by
  have hne : version ≠ IG_PROTOCOL_VERSION := by
    unfold IG_PROTOCOL_VERSION at hv ⊢
    bv_omega
  simp [translateProtocol, hne, hc, hv]

/-- Both columns of the map of protocol 0 are free of repetitions, so it can be undone. -/
theorem codeMap0_inverse : ∀ p ∈ codeMap0,
    codeMap0.find? (·.1 == p.1) = some p ∧ codeMap0.find? (·.2 == p.2) = some p :=
  List.all_iff_forall_prop.mp (by decide)

theorem codeMap0_exch : ∀ p ∈ codeMap0, p.1 ≠ IG_EXCH_VERSIONS ∧ p.2 ≠ IG_EXCH_VERSIONS :=
  List.all_iff_forall_prop.mp (by decide)

/-- Translating a code into a version and back gives the code again. -/
theorem translateProtocol_inverse {code code' : Byte} {version : Version} {dir : Bool}
    (h : translateProtocol code version dir = some code') :
    translateProtocol code' version (!dir) = some code := by
  unfold translateProtocol at h ⊢
  split_ifs at h with h₁ h₂ h₃
  · obtain rfl := Option.some.inj h
    rw [if_pos h₁]
  · obtain ⟨p, hp, rfl⟩ := Option.map_eq_some_iff.mp h
    have hmem := List.mem_of_find?_eq_some hp
    have hcode : p.1 = code := by simpa using List.find?_some hp
    have hne := (codeMap0_exch p hmem).2
    rw [if_neg (by tauto), if_neg h₂, h₃, if_neg (by simp), (codeMap0_inverse p hmem).2]
    simp [hcode]
  · obtain ⟨p, hp, rfl⟩ := Option.map_eq_some_iff.mp h
    have hmem := List.mem_of_find?_eq_some hp
    have hcode : p.2 = code := by simpa using List.find?_some hp
    have hne := (codeMap0_exch p hmem).1
    rw [if_neg (by tauto), if_neg h₂, (codeMap0_inverse p hmem).1]
    simp [hcode, h₃]

end IguanaIR
