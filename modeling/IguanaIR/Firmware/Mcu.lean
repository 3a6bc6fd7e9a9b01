import IguanaIR.Protocol

/-! # The microcontroller

The state that the firmware works on.  RAM is a function on the 8-bit addresses, and the
variables that `loader.asm` pins down have their addresses here, so that the overlaps are as in
the source: `controlPkt` starts where `tmp4` and `lastPulse` are.  The variables of the body
(`ir.asm`) are placed by the linker and are fields of their own.

Registers A and X are the locals of the definitions that translate the assembler code, and the
zero flag is the condition of its jumps.  `out` holds the packets that the host has written and
`sent` those for the host, in order; `ir` is what the transmit pins did, as the value of
`txState` and a number of half carrier periods.  The flash is read only page by page.

The codes are those of `iguanaIR.h`, which the build inserts into `loader.inc` and `body.inc`
under names that start with `CTL` in place of `IG_DEV`. -/

namespace IguanaIR.Firmware

/-! ### Constants -/

def FLAG_HALTED : Byte := 0x01
def FLAG_BODY_INIT : Byte := 0x02
def FLAG_BODY_RESET : Byte := 0x04
def FLAG_BODY_BUFCLR : Byte := 0x08

def BUFFER_SIZE : Byte := 150
def PACKET_SIZE : Byte := 8
def CTL_BASE_SIZE : Byte := 4
def CCODE : Byte := 3
def CDATA : Byte := 4
def FIRST_FLASH_VAR : Byte := 0xF8
def PINNED_VAR_START : Byte := FIRST_FLASH_VAR - BUFFER_SIZE - 5
def FROM_PC : Byte := 0xCD
def TO_PC : Byte := 0xDC
def FLASH_BLOCK_SIZE : ℕ := 64
def BODY_JUMPS : ℕ := 0x0C00
def VERSION_ID_HIGH : Byte := 0x03
def MAGIC_WRITE_BYTE : Byte := 0x42

def RX_ON_FLAG : Byte := 0x01
def RX_OVERFLOW_FLAG : Byte := 0x02
def RX_REPEATER_FLAG : Byte := 0x04

def TX_MASK : Byte := 0xFC
def OLD_TX_MASK : Byte := 0x40
def PIN_CFG_MASK : Byte := 0x07

/-- The features that `get_feature_list` reports. -/
def HAS_LEDS : Byte := 0x01
def HAS_BOTH : Byte := 0x02
def HAS_SOCKETS : Byte := 0x04
def SLOT_DEV : Byte := 0x10

/-! ### Addresses -/

def buffer : Byte := PINNED_VAR_START
def bufferPtr : Byte := PINNED_VAR_START + BUFFER_SIZE
def loaderFlags : Byte := bufferPtr + 1
def tmp1 : Byte := bufferPtr + 2
def tmp2 : Byte := bufferPtr + 3
def tmp3 : Byte := bufferPtr + 4
def tmp4 : Byte := bufferPtr + 5
def lastPulse : Byte := bufferPtr + 6
def controlPkt : Byte := FIRST_FLASH_VAR

/-- The bytes needed for reflashing pages. -/
def KEY1 : Byte := 0xF8
def KEY2 : Byte := 0xF9
def BLOCKID : Byte := 0xFA
def POINTER : Byte := 0xFB
def CLOCK : Byte := 0xFC
def DELAY : Byte := 0xFE

/-- The registers of the pins; the port registers are read and written at once. -/
inductive Reg where
  | P0DATA | P1DATA
  | P00CR | P01CR | P02CR | P03CR | P04CR | P05CR | P06CR | P07CR
  | P12CR | P13CR | P14CR | P15CR | P16CR | P17CR
deriving DecidableEq, Repr

/-- Which set the transmit pins are in. -/
def TX_BANK : Reg := .P1DATA
def OLD_TX_BANK : Reg := .P0DATA

/-! ### The state -/

structure Mcu where
  ram : Byte → Byte
  reg : Reg → Byte
  /-- What `get_feature_list` returns. -/
  features : Byte
  flash : Byte → ℕ → Byte
  /-- The stack pointer where the flash functions take it. -/
  sp : Byte
  txPins : Byte
  txState : Byte
  txBank : Reg
  rxFlags : Byte
  bufSize : Byte
  readPtr : Byte
  rxHigh : Byte
  rxLow : Byte
  rxPulse : Byte
  /-- Are the timer interrupts enabled? -/
  rxEnabled : Bool
  out : List (List Byte)
  sent : List (List Byte)
  ir : List (Byte × ℕ)

theorem add_ofNat_succ (x : Byte) (i : ℕ) :
    x + BitVec.ofNat 8 (i + 1) = x + 1 + BitVec.ofNat 8 i := by
  rw [BitVec.add_assoc, Nat.add_comm i 1, BitVec.ofNat_add]
  rfl

namespace Mcu

/-- Everything cleared, on a device with these features. -/
def cleared (features : Byte) : Mcu where
  ram := fun _ => 0
  reg := fun _ => 0
  features := features
  flash := fun _ _ => 0
  sp := 0
  txPins := 0
  txState := 0
  txBank := TX_BANK
  rxFlags := 0
  bufSize := 0
  readPtr := 0
  rxHigh := 0
  rxLow := 0
  rxPulse := 0
  rxEnabled := false
  out := []
  sent := []
  ir := []

/-- Write `v` at address `a`. -/
def write (m : Mcu) (a v : Byte) : Mcu :=
  { m with ram := fun x => if x = a then v else m.ram x }

def setReg (m : Mcu) (r : Reg) (v : Byte) : Mcu :=
  { m with reg := fun x => if x = r then v else m.reg x }

/-- The bank and the pins for transmitting. -/
def setTx (m : Mcu) (bank : Reg) (pins : Byte) : Mcu := { m with txBank := bank, txPins := pins }

def setTxState (m : Mcu) (v : Byte) : Mcu := { m with txState := v }

/-- Write bytes from address `a` on. -/
def writeAll (m : Mcu) (a : Byte) : List Byte → Mcu
  | [] => m
  | b :: rest => writeAll (m.write a b) (a + 1) rest

/-- The `n` bytes from address `a` on. -/
def readAll (m : Mcu) (a : Byte) (n : ℕ) : List Byte :=
  (List.range n).map (fun i => m.ram (a + BitVec.ofNat 8 i))

/-- A byte of the control packet. -/
def ctl (m : Mcu) (i : Byte) : Byte := m.ram (controlPkt + i)

def setCtl (m : Mcu) (i v : Byte) : Mcu := m.write (controlPkt + i) v

@[simp] theorem write_ram (m : Mcu) (a v x : Byte) :
    (m.write a v).ram x = if x = a then v else m.ram x := rfl

@[simp] theorem setReg_ram (m : Mcu) (r : Reg) (v : Byte) : (m.setReg r v).ram = m.ram := rfl

@[simp] theorem setTxState_ram (m : Mcu) (v : Byte) : (m.setTxState v).ram = m.ram := rfl

theorem write_same (m : Mcu) (a v : Byte) : (m.write a v).ram a = v := by simp

theorem write_ne (m : Mcu) {a x : Byte} (v : Byte) (h : x ≠ a) : (m.write a v).ram x = m.ram x := by
  simp [h]

theorem toNat_succ {a : Byte} (h : a.toNat + 1 < 256) : (a + 1).toNat = a.toNat + 1 := by
  have h₁ : (1 : Byte).toNat = 1 := rfl
  rw [BitVec.toNat_add, h₁]
  omega

theorem writeAll_ram_of_lt : ∀ (bytes : List Byte) (m : Mcu) (a x : Byte),
    a.toNat + bytes.length ≤ 256 → x.toNat < a.toNat ∨ a.toNat + bytes.length ≤ x.toNat →
      (m.writeAll a bytes).ram x = m.ram x
  | [], _, _, _, _, _ => rfl
  | b :: rest, m, a, x, hroom, hx => by
      rw [List.length_cons] at hroom hx
      have hne : x ≠ a := by
        rintro rfl
        omega
      rw [writeAll]
      cases rest with
      | nil => exact write_ne m b hne
      | cons b' rest =>
          rw [List.length_cons] at hroom hx
          have hsucc := toNat_succ (a := a) (by omega)
          rw [writeAll_ram_of_lt (b' :: rest) _ (a + 1) x, write_ne m b hne]
          · rw [hsucc, List.length_cons]
            omega
          · rw [hsucc, List.length_cons]
            omega

theorem writeAll_ram_add : ∀ (bytes : List Byte) (m : Mcu) (a : Byte),
    a.toNat + bytes.length ≤ 256 → ∀ i, ∀ h : i < bytes.length,
      (m.writeAll a bytes).ram (a + BitVec.ofNat 8 i) = bytes[i]
  | [], _, _, _, i, h => absurd h (Nat.not_lt_zero i)
  | [b], m, a, _, 0, _ => by
      rw [BitVec.add_zero]
      exact write_same m a b
  | b :: b' :: rest, m, a, hroom, 0, _ => by
      have hsucc := toNat_succ (a := a) (by rw [List.length_cons, List.length_cons] at hroom; omega)
      rw [List.length_cons] at hroom
      rw [writeAll, BitVec.add_zero, writeAll_ram_of_lt _ _ _ _ (by omega) (by omega)]
      exact write_same m a b
  | b :: b' :: rest, m, a, hroom, i + 1, h => by
      have hsucc := toNat_succ (a := a) (by rw [List.length_cons, List.length_cons] at hroom; omega)
      rw [List.length_cons] at hroom h
      rw [writeAll, add_ofNat_succ, List.getElem_cons_succ]
      exact writeAll_ram_add (b' :: rest) _ (a + 1) (by omega) i (by omega)

end Mcu

/-! ### Bytes in RAM -/

/-- The bytes are in RAM from address `a` on. -/
def Stored (m : Mcu) (a : Byte) (bytes : List Byte) : Prop :=
  ∀ i, ∀ h : i < bytes.length, m.ram (a + BitVec.ofNat 8 i) = bytes[i]

namespace Stored

theorem nil (m : Mcu) (a : Byte) : Stored m a [] := fun _ h => absurd h (Nat.not_lt_zero _)

theorem readAll {m : Mcu} {a : Byte} {bytes : List Byte} (h : Stored m a bytes) :
    m.readAll a bytes.length = bytes := by
  apply List.ext_getElem
  · rw [Mcu.readAll, List.length_map, List.length_range]
  · intro i h₁ h₂
    rw [← h i h₂]
    simp [Mcu.readAll]

theorem congr {m m' : Mcu} {a : Byte} {bytes : List Byte} (h : Stored m a bytes)
    (hram : ∀ i < bytes.length, m'.ram (a + BitVec.ofNat 8 i) = m.ram (a + BitVec.ofNat 8 i)) :
    Stored m' a bytes := by
  intro i hi
  rw [hram i hi, h i hi]

theorem writeAll {m : Mcu} {a : Byte} {bytes : List Byte} (hroom : a.toNat + bytes.length ≤ 256) :
    Stored (m.writeAll a bytes) a bytes := Mcu.writeAll_ram_add bytes m a hroom

/-- One more byte behind those that are there. -/
theorem snoc {m m' : Mcu} {a b : Byte} {bytes : List Byte} (h : Stored m a bytes)
    (hold : ∀ i < bytes.length, m'.ram (a + BitVec.ofNat 8 i) = m.ram (a + BitVec.ofNat 8 i))
    (hnew : m'.ram (a + BitVec.ofNat 8 bytes.length) = b) : Stored m' a (bytes ++ [b]) := by
  intro i hi
  rw [List.length_append, List.length_singleton] at hi
  rcases Nat.lt_or_ge i bytes.length with hlt | hge
  · rw [List.getElem_append_left hlt, hold i hlt, h i hlt]
  · obtain rfl : i = bytes.length := by omega
    rw [hnew, List.getElem_append_right (Nat.le_refl _)]
    simp

end Stored

end IguanaIR.Firmware
