import IguanaIR.Protocol

/-! # Data packets

The `dataPacket` of `dataPackets.h`, its reader, and the bytes of C integers.

`data` is a `malloc`ed block or `NULL` (`none`), and `dataLen` a separate `int` that a client
may set to anything.  Access outside the block, or through `NULL`, is undefined in C; here it
is an `Option` that is `none`, and so is every function that runs into one.

Real time is not modelled: what `select` and `read` answer, and whether the wait for the header
left any time for the payload, is input (`PipeAnswers`, `Arrival`).  Integers in memory are
little endian and a `dataPacket` takes 40 bytes, as on 64-bit Linux. -/

namespace IguanaIR

structure DataPacket where
  code : Byte
  dataLen : ℤ
  data : Option (List Byte)
deriving DecidableEq, Repr

/-- Reading the first `n` bytes of a block. -/
def readBytes (data : Option (List Byte)) (n : ℤ) : Option (List Byte) :=
  if n < 0 then none
  else if n = 0 then some []
  else match data with
    | none => none
    | some bytes => if n ≤ bytes.length then some (bytes.take n.toNat) else none

/-- `data` holds `dataLen` bytes, or nothing at all for a length that is not positive. -/
def DataPacket.Filled (p : DataPacket) : Prop :=
  if p.dataLen ≤ 0 then p.data = none else ∃ bytes, p.data = some bytes ∧ bytes.length = p.dataLen

theorem readBytes_some {bytes : List Byte} {n : ℕ} (h : n ≤ bytes.length) :
    readBytes (some bytes) n = some (bytes.take n) := by
  unfold readBytes
  rw [if_neg (by omega)]
  split_ifs with h₀
  · obtain rfl : n = 0 := by omega
    simp
  · simp [h]

@[simp] theorem readBytes_zero (data : Option (List Byte)) : readBytes data 0 = some [] := by
  simp [readBytes]

theorem readBytes_length {data : Option (List Byte)} {n : ℤ} {bytes : List Byte}
    (h : readBytes data n = some bytes) : (bytes.length : ℤ) = n := by
  unfold readBytes at h
  split_ifs at h with h₀ h₁
  · obtain rfl := Option.some.inj h
    simp [h₁]
  · cases data with
    | none => cases h
    | some all =>
        simp only at h
        split_ifs at h with h₂
        obtain rfl := Option.some.inj h
        rw [List.length_take]
        omega

/-! ### Integers in memory -/

/-- The little-endian bytes of a 32-bit word. -/
def wordBytes (w : BitVec 32) : List Byte :=
  [w.extractLsb' 0 8, w.extractLsb' 8 8, w.extractLsb' 16 8, w.extractLsb' 24 8]

/-- The words stored in a block; a tail shorter than a word is not one. -/
def bytesWords : List Byte → List (BitVec 32)
  | a :: b :: c :: d :: rest => (d ++ c ++ b ++ a) :: bytesWords rest
  | _ => []

/-- The bytes of a `uint32_t` after `htonl`. -/
def htonlBytes (w : BitVec 32) : List Byte := (wordBytes w).reverse

/-- The bytes of a `uint16_t`. -/
def halfBytes (v : BitVec 16) : List Byte := [v.extractLsb' 0 8, v.extractLsb' 8 8]

/-! ### Reading a packet -/

/-- What `select` reports. -/
inductive SelectAnswer where
  | failed
  | timeout
  | ready
  | exceptional
deriving DecidableEq, Repr

/-- The kernel's answers to one `timedPipeOperation`: `select`, then each `read`, which gives
some bytes, none at the end of the stream, or fails. -/
structure PipeAnswers where
  select : SelectAnswer
  reads : List (Option (List Byte))
deriving Repr

/-- The `read` loop: `goal` bytes to go, `got` already there.  A descriptor that has no more
answers would block, which the non-blocking sockets report as a failure. -/
def readLoop : ℕ → List Byte → List (Option (List Byte)) → ℤ × List Byte
  | 0, got, _ => (got.length, got)
  | _ + 1, got, [] => (-1, got)
  | _ + 1, got, none :: _ => (-1, got)
  | goal + 1, got, some bytes :: rest =>
      if bytes.isEmpty then (if got.isEmpty then -1 else got.length, got)
      else readLoop (goal + 1 - (bytes.take (goal + 1)).length) (got ++ bytes.take (goal + 1)) rest

/-- `timedPipeOperation` for reading: its result and the bytes now in the buffer. -/
def readPipeTimed (answers : PipeAnswers) (size : ℕ) : ℤ × List Byte :=
  match answers.select with
  | .failed => (-1, [])
  | .timeout => (0, [])
  | .ready => readLoop size [] answers.reads
  | .exceptional => (-1, [])

/-- A result that is not a failure is the number of bytes read. -/
theorem readLoop_length : ∀ (reads : List (Option (List Byte))) (goal : ℕ) (got : List Byte),
    (readLoop goal got reads).1 ≠ -1 →
      ((readLoop goal got reads).2.length : ℤ) = (readLoop goal got reads).1
  | [], 0, _, _ => rfl
  | [], _ + 1, _, h => absurd rfl h
  | _ :: _, 0, _, _ => rfl
  | none :: _, _ + 1, _, h => absurd rfl h
  | some chunk :: reads, goal + 1, got, h => by
      simp only [readLoop] at h ⊢
      split_ifs at h ⊢ with h₁ h₂
      · exact absurd rfl h
      · rfl
      · exact readLoop_length reads _ _ h

theorem readPipeTimed_length {answers : PipeAnswers} {size : ℕ}
    (h : (readPipeTimed answers size).1 ≠ -1) :
    ((readPipeTimed answers size).2.length : ℤ) = (readPipeTimed answers size).1 := by
  unfold readPipeTimed at h ⊢
  cases hs : answers.select with
  | failed => simp [hs] at h
  | timeout => rfl
  | ready =>
      simp only [hs] at h ⊢
      exact readLoop_length _ _ _ h
  | exceptional => simp [hs] at h

/-- `sizeof(dataPacket)`: three list pointers, the code, the length, the data pointer. -/
def PACKET_BYTES : ℕ := 40

/-- `packet->code` and `packet->dataLen` in the bytes of a `dataPacket`. -/
def headerFields (header : List Byte) : Byte × BitVec 32 :=
  (header.getD 24 0, header.getD 31 0 ++ header.getD 30 0 ++ header.getD 29 0 ++ header.getD 28 0)

/-- What happens while a packet is read: the header's read, whether `malloc` succeeds, whether
`timePassed <= timeout`, and the payload's read. -/
structure Arrival where
  header : PipeAnswers
  allocated : Bool
  inTime : Bool
  payload : PipeAnswers
deriving Repr

def readDataPacket (a : Arrival) : Option DataPacket :=
  let (result, header) := readPipeTimed a.header PACKET_BYTES
  if result = PACKET_BYTES then
    let (code, length) := headerFields header
    if length.toInt ≤ 0 then some ⟨code, length.toInt, none⟩
    else if a.allocated && a.inTime then
      let (result, bytes) := readPipeTimed a.payload length.toNat
      if result = length.toInt then some ⟨code, length.toInt, some bytes⟩ else none
    else none
  else none

/-- The header of a packet as it lies in memory, without its pointers. -/
def packetHeader (code : Byte) (length : BitVec 32) : List Byte :=
  List.replicate 24 0 ++ [code, 0, 0, 0] ++ wordBytes length ++ List.replicate 8 0

/-- A packet that arrives in one piece. -/
def Arrival.whole (code : Byte) (length : BitVec 32) (payload : List Byte) : Arrival :=
  ⟨⟨.ready, [some (packetHeader code length)]⟩, true, true, ⟨.ready, [some payload]⟩⟩

/-- The length of a packet that was read is a signed 32-bit number, and `data` holds that many
bytes. -/
theorem readDataPacket_filled {a : Arrival} {p : DataPacket} (h : readDataPacket a = some p) :
    p.Filled ∧ ∃ length : BitVec 32, p.dataLen = length.toInt := by
  unfold readDataPacket at h
  dsimp only at h
  split_ifs at h with h₁ h₂ h₃ h₄
  · obtain rfl := Option.some.inj h
    exact ⟨by simp [DataPacket.Filled, h₂], _, rfl⟩
  · obtain rfl := Option.some.inj h
    refine ⟨?_, _, rfl⟩
    unfold DataPacket.Filled
    rw [if_neg h₂]
    exact ⟨_, rfl, (readPipeTimed_length (by rw [h₄]; omega)).trans h₄⟩

/-! ### Frames -/

/-- What `writeDataPacket` puts on the socket: the header, then `dataLen` bytes if that is
positive. -/
structure Frame where
  code : Byte
  dataLen : ℤ
  payload : List Byte
deriving DecidableEq, Repr

def DataPacket.frame (p : DataPacket) : Option Frame :=
  if 0 < p.dataLen then (readBytes p.data p.dataLen).map (⟨p.code, p.dataLen, ·⟩)
  else some ⟨p.code, p.dataLen, []⟩

theorem DataPacket.frame_code {p : DataPacket} {f : Frame} (h : p.frame = some f) :
    f.code = p.code := by
  unfold DataPacket.frame at h
  split_ifs at h
  · obtain ⟨_, _, rfl⟩ := Option.map_eq_some_iff.mp h
    rfl
  · obtain rfl := Option.some.inj h
    rfl

theorem DataPacket.frame_of_filled {code : Byte} {bytes : List Byte} (h : bytes ≠ []) :
    DataPacket.frame ⟨code, bytes.length, some bytes⟩ = some ⟨code, bytes.length, bytes⟩ := by
  have hpos : 0 < bytes.length := List.length_pos_iff.mpr h
  unfold DataPacket.frame
  simp only
  rw [if_pos (by omega), readBytes_some (Nat.le_refl _), List.take_length, Option.map_some]

end IguanaIR
