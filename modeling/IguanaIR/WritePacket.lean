import IguanaIR.DataPacket
import IguanaIR.Framing

/-! # Writing a packet

`writeDataPacket` of `dataPackets.c` and the `write` loop of `timedPipeOperation`, byte by byte.
A packet goes out as two timed writes, and what the kernel answers is input: `select`, then how
many bytes each `write` takes.

`PipeWrite.room` is what the answers come to: the number of bytes that the socket takes before the
loop ends. -/

namespace IguanaIR

/-! ### Bytes of a frame -/

/-- The `dataPacket` as it lies in memory.  The list pointers, the data pointer and the padding
hold anything. -/
def headerBytes (memory : ℕ → Byte) (code : Byte) (length : BitVec 32) : List Byte :=
  (List.range PACKET_BYTES).map (fun i =>
    if i = 24 then code
    else if 28 ≤ i ∧ i < 32 then (wordBytes length).getD (i - 28) 0
    else memory i)

/-- A header and as many bytes as it says. -/
def IsFrame (bytes : List Byte) : Prop :=
  ∃ memory code length payload, bytes = headerBytes memory code length ++ payload ∧
    payload.length = length.toInt.toNat

@[simp] theorem headerBytes_length (memory : ℕ → Byte) (code : Byte) (length : BitVec 32) :
    (headerBytes memory code length).length = PACKET_BYTES := by
  simp [headerBytes]

/-- What is stored in a header is read from it. -/
theorem headerFields_headerBytes (memory : ℕ → Byte) (code : Byte) (length : BitVec 32)
    (rest : List Byte) : headerFields (headerBytes memory code length ++ rest) = (code, length) := by
  have hget (i : ℕ) (hi : i < PACKET_BYTES) : (headerBytes memory code length ++ rest).getD i 0 =
      if i = 24 then code
      else if 28 ≤ i ∧ i < 32 then (wordBytes length).getD (i - 28) 0 else memory i := by
    simp [headerBytes, List.getD_eq_getElem?_getD, List.getElem?_append, hi]
  have hword : length.extractLsb' 24 8 ++ length.extractLsb' 16 8 ++ length.extractLsb' 8 8 ++
      length.extractLsb' 0 8 = length := by
    ext i hi
    simp only [BitVec.getElem_append, BitVec.getElem_extractLsb']
    rw [← BitVec.getLsbD_eq_getElem hi]
    split_ifs <;> apply congrArg length.getLsbD <;> omega
  unfold headerFields
  simp only [hget 24 (by decide), hget 28 (by decide), hget 29 (by decide), hget 30 (by decide),
    hget 31 (by decide)]
  refine Prod.ext rfl ?_
  exact hword

/-! ### One timed write -/

/-- The kernel's answers to one `timedPipeOperation`: `select`, then what each `write` takes,
where -1 is `none`.  A descriptor that has no more answers would block. -/
structure PipeWrite where
  select : SelectAnswer
  accepted : List (Option ℕ)
deriving Repr

/-- The `write` loop behind `sent` bytes: the pieces that are taken, and the result. -/
def writeLoop (sent : ℕ) : List Byte → List (Option ℕ) → List (List Byte) × ℤ
  | [], _ => ([], sent)
  | _ :: _, [] => ([], -1)
  | _ :: _, none :: _ => ([], -1)
  | _ :: _, some 0 :: _ => ([], if sent = 0 then -1 else sent)
  | b :: bytes, some (n + 1) :: rest =>
      let piece := (b :: bytes).take (n + 1)
      let (pieces, result) := writeLoop (sent + piece.length) ((b :: bytes).drop (n + 1)) rest
      (piece :: pieces, result)

/-- `timedPipeOperation` for writing: the pieces that are taken, and its result. -/
def writePipeTimed (bytes : List Byte) (w : PipeWrite) : List (List Byte) × ℤ :=
  match w.select with
  | .failed => ([], -1)
  | .timeout => ([], 0)
  | .ready => writeLoop 0 bytes w.accepted
  | .exceptional => ([], -1)

/-- What the calls take, up to the first that takes nothing. -/
def takenBy : List (Option ℕ) → ℕ
  | some (n + 1) :: rest => n + 1 + takenBy rest
  | _ => 0

/-- How many bytes does the socket take? -/
def PipeWrite.room (w : PipeWrite) : ℕ := if w.select = .ready then takenBy w.accepted else 0

theorem writeLoop_spec : ∀ (accepted : List (Option ℕ)) (bytes : List Byte) (sent : ℕ),
    (writeLoop sent bytes accepted).1.flatten = bytes.take (takenBy accepted) ∧
      (bytes.length ≤ takenBy accepted →
        (writeLoop sent bytes accepted).2 = (sent + bytes.length : ℕ)) ∧
      (takenBy accepted < bytes.length →
        (writeLoop sent bytes accepted).2 ≠ (sent + bytes.length : ℕ))
  | [], [], sent => by simp [writeLoop]
  | [], b :: bytes, sent => by
      simp only [writeLoop, takenBy]
      refine ⟨by simp, by simp, ?_⟩
      intro _ h
      omega
  | none :: rest, [], sent => by simp [writeLoop]
  | none :: rest, b :: bytes, sent => by
      simp only [writeLoop, takenBy]
      refine ⟨by simp, by simp, ?_⟩
      intro _ h
      omega
  | some 0 :: rest, [], sent => by simp [writeLoop]
  | some 0 :: rest, b :: bytes, sent => by
      simp only [writeLoop, takenBy]
      refine ⟨by simp, by simp, ?_⟩
      intro _ h
      rw [List.length_cons] at h
      split_ifs at h
      all_goals omega
  | some (n + 1) :: rest, [], sent => by simp [writeLoop]
  | some (n + 1) :: rest, b :: bytes, sent => by
      obtain ⟨hbytes, hdone, hshort⟩ := writeLoop_spec rest ((b :: bytes).drop (n + 1))
        (sent + ((b :: bytes).take (n + 1)).length)
      have hlen : ((b :: bytes).take (n + 1)).length + ((b :: bytes).drop (n + 1)).length =
          (b :: bytes).length := by
        rw [← List.length_append, List.take_append_drop]
      have hdrop := List.length_drop (i := n + 1) (l := b :: bytes)
      simp only [writeLoop, takenBy]
      refine ⟨?_, ?_, ?_⟩
      · rw [List.flatten_cons, hbytes, ← List.take_add]
      · intro h
        rw [hdone (by omega), Nat.add_assoc, hlen]
      · intro h
        have hne := hshort (by omega)
        rwa [Nat.add_assoc, hlen] at hne

/-- **A timed write** puts as many bytes on the socket as it takes, and its result is their number
only if it takes them all. -/
theorem writePipeTimed_spec {bytes : List Byte} (hne : bytes ≠ []) (w : PipeWrite) :
    (writePipeTimed bytes w).1.flatten = bytes.take w.room ∧
      ((writePipeTimed bytes w).2 = bytes.length ↔ bytes.length ≤ w.room) := by
  have hpos := List.length_pos_iff.mpr hne
  unfold writePipeTimed PipeWrite.room
  cases hselect : w.select with
  | failed =>
      simp only [reduceCtorEq, if_false, List.flatten_nil, List.take_zero, true_and]
      exact iff_of_false id (by omega)
  | timeout =>
      simp only [reduceCtorEq, if_false, List.flatten_nil, List.take_zero, true_and]
      omega
  | exceptional =>
      simp only [reduceCtorEq, if_false, List.flatten_nil, List.take_zero, true_and]
      exact iff_of_false id (by omega)
  | ready =>
      obtain ⟨hbytes, hdone, hshort⟩ := writeLoop_spec w.accepted bytes 0
      rw [Nat.zero_add] at hdone hshort
      simp only [if_true]
      refine ⟨hbytes, ?_, hdone⟩
      intro h
      by_contra hlt
      exact hshort (by omega) h

/-! ### A packet -/

/-- The answers for both writes of a packet, and what its header holds besides code and length. -/
structure WriteAnswers where
  memory : ℕ → Byte
  header : PipeWrite
  payload : PipeWrite

/-- `writeDataPacket`: the pieces that the socket takes, and whether all went well.  A length that
an `int` cannot hold does not occur. -/
def writeDataPacket (f : Frame) (a : WriteAnswers) : Option (List (List Byte) × Bool) :=
  if (BitVec.ofInt 32 f.dataLen).toInt = f.dataLen then
    let (pieces, result) :=
      writePipeTimed (headerBytes a.memory f.code (BitVec.ofInt 32 f.dataLen)) a.header
    if result = PACKET_BYTES then
      if 0 < f.dataLen then
        let (more, result) := writePipeTimed f.payload a.payload
        some (pieces ++ more, decide (result = f.dataLen))
      else some (pieces, true)
    else some (pieces, false)
  else none

/-- Does the socket take the whole frame? -/
def WriteAnswers.takes (a : WriteAnswers) (f : Frame) : Prop :=
  PACKET_BYTES ≤ a.header.room ∧ f.dataLen ≤ a.payload.room

/-- Does the socket take nothing of the frame? -/
def WriteAnswers.refuses (a : WriteAnswers) : Prop := a.header.room = 0

instance (a : WriteAnswers) (f : Frame) : Decidable (a.takes f) :=
  inferInstanceAs (Decidable (_ ∧ _))

instance (a : WriteAnswers) : Decidable a.refuses := inferInstanceAs (Decidable (_ = _))

theorem DataPacket.frame_payload {p : DataPacket} {f : Frame} (h : p.frame = some f) :
    f.payload.length = f.dataLen.toNat := by
  unfold DataPacket.frame at h
  split_ifs at h with hpos
  · obtain ⟨bytes, hbytes, rfl⟩ := Option.map_eq_some_iff.mp h
    have hlen := readBytes_length hbytes
    simp only
    omega
  · obtain rfl := Option.some.inj h
    simp only [List.length_nil]
    omega

/-- **`writeDataPacket`** writes a whole frame if it succeeds, which it does when the socket takes
the frame, and nothing when the socket takes nothing. -/
theorem writeDataPacket_spec {f : Frame} {a : WriteAnswers} {pieces : List (List Byte)} {ok : Bool}
    (hpayload : f.payload.length = f.dataLen.toNat)
    (h : writeDataPacket f a = some (pieces, ok)) :
    (ok = true ↔ a.takes f) ∧ (ok = true → IsFrame pieces.flatten) ∧
      (a.refuses → pieces.flatten = []) := by
  unfold writeDataPacket at h
  generalize hheader : headerBytes a.memory f.code (BitVec.ofInt 32 f.dataLen) = header at h
  have hlen : header.length = PACKET_BYTES := by rw [← hheader, headerBytes_length]
  have hne : header ≠ [] := List.ne_nil_of_length_pos (by rw [hlen]; decide)
  obtain ⟨hbytes, hresult⟩ := writePipeTimed_spec hne a.header
  rw [hlen] at hresult
  dsimp only at h
  split_ifs at h with hint hwritten hpos
  · -- a header and a payload
    have hnonempty : f.payload ≠ [] := List.ne_nil_of_length_pos (by omega)
    obtain ⟨hmore, hall⟩ := writePipeTimed_spec hnonempty a.payload
    obtain ⟨rfl, rfl⟩ := Prod.mk.inj (Option.some.inj h)
    have hroom := hresult.mp hwritten
    have hcast : ((f.payload.length : ℕ) : ℤ) = f.dataLen := by omega
    rw [hcast] at hall
    have hok : (writePipeTimed f.payload a.payload).2 = f.dataLen ↔ a.takes f := by
      rw [hall, WriteAnswers.takes]
      omega
    refine ⟨by simpa using hok, ?_, ?_⟩
    · intro h
      have htakes := hok.mp (by simpa using h)
      refine ⟨a.memory, f.code, BitVec.ofInt 32 f.dataLen, f.payload, ?_, by rw [hint, hpayload]⟩
      rw [List.flatten_append, hbytes, hmore, hheader, List.take_of_length_le (by omega),
        List.take_of_length_le (by have := htakes.2; omega)]
    · intro hzero
      rw [hzero] at hroom
      exact absurd hroom (by decide)
  · -- a header alone
    obtain ⟨rfl, rfl⟩ := Prod.mk.inj (Option.some.inj h)
    have hroom := hresult.mp hwritten
    refine ⟨iff_of_true rfl ⟨hroom, by omega⟩, ?_, ?_⟩
    · intro _
      refine ⟨a.memory, f.code, BitVec.ofInt 32 f.dataLen, [], ?_, by rw [hint]; simp; omega⟩
      rw [hbytes, hheader, List.take_of_length_le (by omega), List.append_nil]
    · intro hzero
      rw [hzero] at hroom
      exact absurd hroom (by decide)
  · obtain ⟨rfl, rfl⟩ := Prod.mk.inj (Option.some.inj h)
    refine ⟨iff_of_false Bool.false_ne_true (fun ht => hwritten (hresult.mpr ht.1)), nofun, ?_⟩
    intro hzero
    rw [hbytes, hzero, List.take_zero]

end IguanaIR
