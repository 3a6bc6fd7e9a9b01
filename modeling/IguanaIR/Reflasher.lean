import IguanaIR.Firmware.Flash

/-! # The reflasher

`preparePages` of the `iguanaIR-reflasher` script, which computes the 68 bytes of an
`IG_DEV_WRITEBLOCK` for every page of a firmware image.

A byte of a page is a text of two hexadecimal digits in the script, and the byte here.  A number
that is too large for a `bytearray` is a `ValueError`, which ends the script. -/

namespace IguanaIR

open Firmware

structure Page where
  start : ℕ
  bytes : List Byte
deriving DecidableEq, Repr

/-- A page with what is computed for it. -/
structure PreparedPage extends Page where
  chksum : ℕ
  data : List Byte
deriving DecidableEq, Repr

/-- `bytearray([n])`. -/
def bytearray (n : ℕ) : Option Byte := if n < 256 then some (BitVec.ofNat 8 n) else none

/-- The body of the loop. -/
def preparePage (UNSAFE : Bool) (page : Page) : Option PreparedPage := do
  let chksum := (page.bytes.map (·.toNat)).sum
  let start ← bytearray (page.start / 64)
  let high ← bytearray (chksum / 0x100)
  let low ← bytearray (chksum % 0x100)
  some { page with
    chksum := chksum, data := [start, if UNSAFE then 0x42 else 0, high, low] ++ page.bytes }

/-- The pages are written in reverse, to avoid messing up the jump table before we're ready. -/
def preparePages (UNSAFE : Bool) (pages : List Page) : Option (List PreparedPage) :=
  (pages.mapM (preparePage UNSAFE)).map List.reverse

/-- A page of the flash. -/
def Page.Fits (page : Page) : Prop := page.start < 0x2000 ∧ page.bytes.length = FLASH_BLOCK_SIZE

/-- The 68 bytes of a page. -/
def Page.data (UNSAFE : Bool) (page : Page) : List Byte :=
  [BitVec.ofNat 8 (page.start / 64), if UNSAFE then 0x42 else 0] ++ sumBytes page.bytes ++ page.bytes

theorem bytearray_some {n : ℕ} (h : n < 256) : bytearray n = some (BitVec.ofNat 8 n) := if_pos h

def Page.prepared (UNSAFE : Bool) (page : Page) : PreparedPage :=
  { page with chksum := (pageSum page.bytes).toNat, data := page.data UNSAFE }

/-- **The script's checksum** of a page is the sum of 16 bits, and so are its two bytes. -/
theorem preparePage_eq (UNSAFE : Bool) {page : Page} (h : page.Fits) :
    preparePage UNSAFE page = some (page.prepared UNSAFE) := by
  obtain ⟨hstart, hlen⟩ := h
  rw [FLASH_BLOCK_SIZE] at hlen
  obtain ⟨hsum, hle⟩ := @pageSum_toNat page.bytes (by omega)
  have hhigh : BitVec.ofNat 8 ((pageSum page.bytes).toNat / 0x100) =
      (pageSum page.bytes).extractLsb' 8 8 := by
    rw [← highByte_toNat, BitVec.ofNat_toNat, BitVec.setWidth_eq]
  have hlow : BitVec.ofNat 8 ((pageSum page.bytes).toNat % 0x100) =
      (pageSum page.bytes).extractLsb' 0 8 := by
    rw [← lowByte_toNat, BitVec.ofNat_toNat, BitVec.setWidth_eq]
  simp only [preparePage, bytearray_some (show page.start / 64 < 256 by omega),
    bytearray_some (show (page.bytes.map (·.toNat)).sum / 0x100 < 256 by omega),
    bytearray_some (show (page.bytes.map (·.toNat)).sum % 0x100 < 256 by omega),
    Option.bind_eq_bind, Option.bind_some]
  rw [← hsum, hhigh, hlow]
  rfl

theorem mapM_preparePage (UNSAFE : Bool) : ∀ pages : List Page, (∀ page ∈ pages, page.Fits) →
    pages.mapM (preparePage UNSAFE) = some (pages.map (·.prepared UNSAFE))
  | [], _ => rfl
  | page :: pages, h => by
      have ih := mapM_preparePage UNSAFE pages (fun q hq => h q (List.mem_cons_of_mem _ hq))
      rw [List.mapM_cons, preparePage_eq UNSAFE (h page (List.mem_cons_self ..)), ih]
      rfl

theorem preparePages_eq (UNSAFE : Bool) {pages : List Page} (h : ∀ page ∈ pages, page.Fits) :
    preparePages UNSAFE pages = some (pages.map (·.prepared UNSAFE)).reverse := by
  rw [preparePages, mapM_preparePage UNSAFE pages h]
  rfl

end IguanaIR
