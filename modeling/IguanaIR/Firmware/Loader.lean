import IguanaIR.Firmware.Body
import Mathlib.Data.BitVec

/-! # The loader

`main.asm`: the main loop's handling of one control packet, the flash functions that it handles
itself, and the call of the body for the rest.

The chip's supervisory call works on a flash page and the buffer.  The reset of the chip does not
come back. -/

namespace IguanaIR.Firmware

variable (others : Byte → Mcu → Option Mcu)

/-! ### Flash -/

/-- What the supervisory call is asked for. -/
inductive Ssc where
  | read
  | write
  | erase
deriving DecidableEq, Repr

/-- The code in A. -/
def Ssc.code : Ssc → Byte
  | read => 0x01
  | write => 0x02
  | erase => 0x03

def Mcu.setPage (m : Mcu) (page : Byte) (bytes : ℕ → Byte) : Mcu :=
  { m with flash := fun x => if x = page then bytes else m.flash x }

/-- The parameter block lies in the control packet; the page is the one in `tmp3`. -/
def sscParameters (f : Ssc) (m : Mcu) : Mcu :=
  let m := ((m.write tmp1 f.code).write KEY1 0x3A).write KEY2 (m.sp + 3)
  let m := (m.write BLOCKID (m.ram tmp3)).write POINTER buffer
  (m.write CLOCK 0x00).write DELAY 0xAC

/-- Read, write or erase a page. -/
def execSsc (f : Ssc) (m : Mcu) : Mcu :=
  let m := sscParameters f m
  let page := m.ram BLOCKID
  match f with
  | .read => m.writeAll (m.ram POINTER) ((List.range FLASH_BLOCK_SIZE).map (m.flash page))
  | .write => m.setPage page (fun i => m.ram (m.ram POINTER + BitVec.ofNat 8 i))
  | .erase => m.setPage page (fun _ => 0)

/-- Add up the page in the buffer, as two bytes. -/
def sumInBuffer (m : Mcu) : Mcu :=
  let sum : BitVec 16 := ((m.readAll buffer FLASH_BLOCK_SIZE).map (·.setWidth 16)).sum
  (m.write tmp1 (sum.extractLsb' 8 8)).write tmp2 (sum.extractLsb' 0 8)

def sumPage (m : Mcu) : Mcu := sumInBuffer (execSsc .read m)

/-- The sum becomes the first two data bytes. -/
def loadSum (m : Mcu) : Mcu :=
  let m := m.setCtl CDATA (m.ram tmp1)
  m.setCtl (CDATA + 1) (m.ram tmp2)

/-! ### The packets that the loader handles -/

/-- The low byte of the version is in the body's jump table. -/
def mainGetversion (m : Mcu) : Option Mcu :=
  let m := execSsc .read (m.write tmp3 (BitVec.ofNat 8 (BODY_JUMPS / 64)))
  let m := m.setCtl CCODE IG_DEV_GETVERSION
  let m := m.setCtl CDATA (m.ram (buffer + 1))
  writeControl (CTL_BASE_SIZE + 2) (m.setCtl (CDATA + 1) VERSION_ID_HIGH)

def mainProgError (m : Mcu) : Option Mcu :=
  writeControl CTL_BASE_SIZE (m.setCtl CCODE IG_DEV_INVALID_ARG)

def chksumError (m : Mcu) : Option Mcu :=
  writeControl (CTL_BASE_SIZE + 4) (loadSum (m.setCtl CCODE IG_DEV_BAD_CHKSUM))

/-- Erase and write the page, and send its checksum back. -/
def writePage (m : Mcu) : Option Mcu :=
  let m := execSsc .write (execSsc .erase (m.write tmp3 (m.ctl CDATA)))
  writeControl (CTL_BASE_SIZE + 2) (loadSum ((sumPage m).setCtl CCODE IG_DEV_WRITEBLOCK))

/-- The data has to match its checksum, if there is one; a double zero is not checked. -/
def checkPage (m : Mcu) : Option Mcu :=
  if m.ctl (CDATA + 2) = 0 ∧ m.ctl (CDATA + 3) = 0 then writePage m
  else
    let m := sumInBuffer m
    if m.ram tmp1 = m.ctl (CDATA + 2) ∧ m.ram tmp2 = m.ctl (CDATA + 3) then writePage m
    else chksumError m

/-- The first 48 pages are protected with a special code. -/
def mainProg (m : Mcu) : Option Mcu := do
  let (m, ok) ← readBufferReal (BitVec.ofNat 8 FLASH_BLOCK_SIZE) m
  if ok ∧ (m.ctl (CDATA + 1) = MAGIC_WRITE_BYTE ∨ 48 ≤ (m.ctl CDATA).toNat) then checkPage m
  else mainProgError m

def mainChksum (m : Mcu) : Option Mcu :=
  let m := (sumPage (m.write tmp3 (m.ctl CDATA))).setCtl CCODE IG_DEV_CHECKSUM
  writeControl (CTL_BASE_SIZE + 4) (loadSum m)

/-- `main_recv`: one control packet of the host; a null control code is ignored. -/
def mainRecv (m : Mcu) : Option Mcu := do
  let (m, code) ← readControl m
  if code = 0 then some m
  else if code = IG_DEV_GETVERSION then mainGetversion m
  else if code = IG_DEV_WRITEBLOCK then mainProg m
  else if code = IG_DEV_CHECKSUM then mainChksum m
  else if code = IG_DEV_RESET then none
  else bodyMain others code m

end IguanaIR.Firmware
