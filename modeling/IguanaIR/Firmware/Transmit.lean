import IguanaIR.Firmware.Ir
import Mathlib.Data.List.GetD

/-! # What a buffer of signal bytes transmits

`transmitCode` reads and writes all over RAM, but what it sends depends on little: whether the
last byte had a full length, whether it was a pulse, and the byte kept in `lastPulse`.  `Tx` is
the machine on these three, `emit` what it sends for a list of bytes, and `transmitCode_ir`
says that the firmware sends the same. -/

namespace IguanaIR.Firmware

/-- One call of `send_loop`: on or off, and the number of carrier periods. -/
def onOff (p : Byte × ℕ) : Bool × ℕ := (decide (p.1 ≠ 0), p.2 / 2)

/-- What the transmit loop remembers from byte to byte. -/
structure Tx where
  full : Bool
  on : Bool
  last : Byte
deriving DecidableEq, Repr

namespace Tx

def isPulse (a : Byte) : Bool := a &&& 0x80 == 0

/-- The on/off state and the length that a byte stands for. -/
def symbol (a : Byte) : Bool × ℕ := (isPulse a, (a &&& 0x7F).toNat)

def send (a : Byte) (t : Tx) : Tx :=
  ⟨a &&& 0x7F == 0x7F, isPulse a, if isPulse a then a else t.last⟩

/-- Is the last pulse put in when a space comes next? -/
def ready (t : Tx) : Bool := !t.full && !t.on

/-- The machine after a byte. -/
def next (a : Byte) (t : Tx) : Tx :=
  if !isPulse a && t.ready then (t.send t.last).send a else t.send a

/-- What is sent for a list of bytes. -/
def emit (t : Tx) : List Byte → List (Bool × ℕ)
  | [] => []
  | a :: rest =>
      (if !isPulse a && t.ready then [symbol t.last] else []) ++ symbol a :: emit (t.next a) rest

end Tx

/-- The part of the state that `Tx` keeps. -/
def txOf (m : Mcu) : Tx := ⟨m.ram tmp3 &&& 0x7F == 0x7F, decide (m.txState ≠ 0), m.ram lastPulse⟩

/-! ### One call of `send_loop` -/

/-- What one round of the carrier loop keeps, all of it keeps. -/
theorem slPulse_iterate {α : Type} (f : Mcu → α) (h : ∀ m, f (slPulse m) = f m) (n : ℕ) (m : Mcu) :
    f (slPulse^[n] m) = f m := by
  induction n with
  | zero => rfl
  | succ n ih => rw [Function.iterate_succ_apply', h, ih]

/-- What `send_loop` does for the byte `a`. -/
structure Sends (a : Byte) (m m' : Mcu) : Prop where
  ram : ∀ x, x ≠ tmp2 →
    m'.ram x = if x = tmp3 ∨ x = lastPulse ∧ Tx.isPulse a then a else m.ram x
  txState : m'.txState = if Tx.isPulse a then m.txPins else 0
  ir : m'.ir = m.ir ++ [(m'.txState, 2 * (a &&& 0x7F).toNat)]
  txPins : m'.txPins = m.txPins
  rxFlags : m'.rxFlags = m.rxFlags

/-- Twice a length of 7 bits fits a byte. -/
theorem double_length (a : Byte) : ((a &&& 0x7F) <<< 1).toNat = 2 * (a &&& 0x7F).toNat := by
  have h : (a &&& 0x7F).toNat < 128 := by
    rw [BitVec.toNat_and]
    exact Nat.and_lt_two_pow _ (by decide : (0x7F : Byte).toNat < 2 ^ 7)
  rw [BitVec.toNat_shiftLeft, Nat.shiftLeft_eq]
  omega

/-- The fields of the state in which the carrier loop starts. -/
theorem sendState_fields (a : Byte) {m : Mcu} (h : ¬repeating m) :
    (sendState a m).txState = (if Tx.isPulse a then m.txPins else 0) ∧
    (sendState a m).ir = m.ir ∧ (sendState a m).txPins = m.txPins ∧
    (sendState a m).rxFlags = m.rxFlags := by
  have h' : ¬repeating ((m.write tmp3 a).write tmp2 ((a &&& 0x7F) <<< 1)) := h
  simp only [sendState, if_neg h', Tx.isPulse, beq_iff_eq]
  split_ifs <;> exact ⟨rfl, rfl, rfl, rfl⟩

theorem sendState_ram (a : Byte) {m : Mcu} (h : ¬repeating m) (x : Byte) :
    (sendState a m).ram x = if x = lastPulse ∧ Tx.isPulse a then a
      else if x = tmp2 then (a &&& 0x7F) <<< 1 else if x = tmp3 then a else m.ram x := by
  have h' : ¬repeating ((m.write tmp3 a).write tmp2 ((a &&& 0x7F) <<< 1)) := h
  simp only [sendState, if_neg h', Tx.isPulse, beq_iff_eq]
  split_ifs <;> simp_all

theorem sendLoop_sends (a : Byte) {m : Mcu} (h : ¬repeating m) : Sends a m (sendLoop a m) := by
  obtain ⟨hstate, hir, hpins, hflags⟩ := sendState_fields a h
  constructor
  · intro x hx
    simp only [sendLoop, txPinsOff_ram]
    rw [slPulse_iterate (fun m => m.ram x) (fun m => by simp [slPulse, hx])]
    simp only [sendState_ram a h, if_neg hx]
    split_ifs <;> simp_all
  · simp only [sendLoop, txPinsOff_txState]
    rw [slPulse_iterate Mcu.txState (fun _ => rfl), hstate]
  · have hcount : ((sendState a m).ram tmp2).toNat = 2 * (a &&& 0x7F).toNat := by
      have hne : tmp2 ≠ lastPulse := by decide
      simp only [sendState_ram a h, hne, false_and, if_false, if_true]
      exact double_length a
    simp only [sendLoop, txPinsOff_ir, txPinsOff_txState]
    rw [slPulse_iterate Mcu.ir (fun _ => rfl), slPulse_iterate Mcu.txState (fun _ => rfl), hir,
      hcount]
  · simp only [sendLoop, txPinsOff_txPins]
    rw [slPulse_iterate Mcu.txPins (fun _ => rfl), hpins]
  · simp only [sendLoop, txPinsOff_rxFlags]
    rw [slPulse_iterate Mcu.rxFlags (fun _ => rfl), hflags]

/-- The firmware remembers what `Tx` does, and sends the byte's symbol. -/
theorem Sends.txOf_eq {a : Byte} {m m' : Mcu} (h : Sends a m m') (hp : m.txPins ≠ 0) :
    txOf m' = (txOf m).send a ∧ m'.ir.map onOff = m.ir.map onOff ++ [Tx.symbol a] := by
  have h₃ : m'.ram tmp3 = a := by
    rw [h.ram tmp3 (by decide)]
    simp
  have hl : m'.ram lastPulse = if Tx.isPulse a then a else m.ram lastPulse := by
    have hne : lastPulse ≠ tmp3 := by decide
    rw [h.ram lastPulse (by decide)]
    simp [hne]
  have hs : decide (m'.txState ≠ 0) = Tx.isPulse a := by
    rw [h.txState]
    split_ifs with hpulse
    · rw [hpulse]
      exact decide_eq_true hp
    · simp [hpulse]
  constructor
  · simp only [txOf, Tx.send, h₃, hl, hs]
  · rw [h.ir, List.map_append]
    simp only [List.map_cons, List.map_nil, onOff, hs, Tx.symbol]
    simp

/-! ### The loop over the buffer -/

/-- The variables that a byte's transmission writes are behind the buffer. -/
theorem Sends.ram_of_lt {a : Byte} {m m' : Mcu} (h : Sends a m m') {x : Byte}
    (hx : x.toNat ≤ bufferPtr.toNat) : m'.ram x = m.ram x := by
  have h₂ : x ≠ tmp2 := by rintro rfl; revert hx; decide
  have h₃ : x ≠ tmp3 := by rintro rfl; revert hx; decide
  have hl : x ≠ lastPulse := by rintro rfl; revert hx; decide
  rw [h.ram x h₂]
  simp [h₃, hl]

/-- What the transmission of one byte does to the state. -/
structure SendsByte (a : Byte) (m m' : Mcu) : Prop where
  tx : txOf m' = (txOf m).next a
  ir : m'.ir.map onOff = m.ir.map onOff ++ (txOf m).emit [a]
  ram : ∀ x : Byte, x.toNat < bufferPtr.toNat → m'.ram x = m.ram x
  pointer : m'.ram bufferPtr = m.ram bufferPtr + 1
  txPins : m'.txPins = m.txPins
  rxFlags : m'.rxFlags = m.rxFlags

/-- The pulse that is put in, or nothing. -/
theorem insertion_spec {a : Byte} {m : Mcu} (h : ¬repeating m) (hp : m.txPins ≠ 0) :
    ∃ m', (if insertsPulse a m then sendLoop (m.ram lastPulse) m else m) = m' ∧ ¬repeating m' ∧
      m'.txPins = m.txPins ∧ m'.rxFlags = m.rxFlags ∧ m'.ram tmp4 = m.ram tmp4 ∧
      (∀ x : Byte, x.toNat ≤ bufferPtr.toNat → m'.ram x = m.ram x) ∧
      (txOf m').send a = (txOf m).next a ∧
      m'.ir.map onOff ++ [Tx.symbol a] = m.ir.map onOff ++ (txOf m).emit [a] := by
  have hins : insertsPulse a m ↔ (!Tx.isPulse a && (txOf m).ready) = true := by
    simp [insertsPulse, Tx.isPulse, Tx.ready, txOf]
  by_cases hi : insertsPulse a m
  · have hs := sendLoop_sends (m.ram lastPulse) h
    obtain ⟨htx, hir⟩ := hs.txOf_eq hp
    refine ⟨_, if_pos hi, ?_, hs.txPins, hs.rxFlags, ?_, fun x hx => hs.ram_of_lt hx, ?_, ?_⟩
    · rw [repeating, hs.rxFlags]
      exact h
    · have h₃ : tmp4 ≠ tmp3 := by decide
      have hl : tmp4 ≠ lastPulse := by decide
      rw [hs.ram tmp4 (by decide)]
      simp [h₃, hl]
    · rw [htx, Tx.next, if_pos (hins.mp hi)]
      rfl
    · rw [hir, Tx.emit, if_pos (hins.mp hi), List.append_assoc]
      rfl
  · refine ⟨_, if_neg hi, h, rfl, rfl, rfl, fun _ _ => rfl, ?_, ?_⟩
    · rw [Tx.next, if_neg (fun hc => hi (hins.mpr hc))]
    · rw [Tx.emit, if_neg (fun hc => hi (hins.mpr hc))]
      rfl

/-- A byte sends what it stands for, with the last pulse in front where one is put in. -/
theorem txByte_sendsByte {m : Mcu} (h : ¬repeating m) (hp : m.txPins ≠ 0) :
    SendsByte (m.ram (m.ram bufferPtr)) m (txByte m) := by
  generalize ha : m.ram (m.ram bufferPtr) = a
  -- the pointer and `tmp4` are written first
  obtain ⟨m₀, hm₀⟩ : ∃ m₀, m₀ = (m.write bufferPtr (m.ram bufferPtr + 1)).write tmp4 a := ⟨_, rfl⟩
  have hq : ¬repeating m₀ := by rw [hm₀]; exact h
  have hp₀ : m₀.txPins ≠ 0 := by rw [hm₀]; exact hp
  have htx : txOf m₀ = txOf m := by rw [hm₀]; rfl
  have hptr : m₀.ram bufferPtr = m.ram bufferPtr + 1 := by
    rw [hm₀, Mcu.write_ne _ _ (by decide), Mcu.write_same]
  have hram : ∀ x : Byte, x.toNat < bufferPtr.toNat → m₀.ram x = m.ram x := by
    intro x hx
    have h₁ : x ≠ tmp4 := by rintro rfl; revert hx; decide
    have h₂ : x ≠ bufferPtr := by rintro rfl; omega
    rw [hm₀, Mcu.write_ne _ _ h₁, Mcu.write_ne _ _ h₂]
  obtain ⟨m₁, hm₁, hq₁, hpins₁, hflags₁, h₄, hram₁, htx₁, hir₁⟩ := insertion_spec (a := a) hq hp₀
  have hbyte : txByte m = sendLoop (m₁.ram tmp4) m₁ := by
    rw [← hm₁, hm₀, ← ha]
    rfl
  have ha₁ : m₁.ram tmp4 = a := by
    rw [h₄, hm₀, Mcu.write_same]
  have hs := sendLoop_sends a hq₁
  obtain ⟨htx', hir'⟩ := hs.txOf_eq (by rw [hpins₁]; exact hp₀)
  rw [hbyte, ha₁]
  constructor
  · rw [htx', htx₁, htx]
  · rw [hir', hir₁, htx, hm₀]
    rfl
  · intro x hx
    rw [hs.ram_of_lt (by omega), hram₁ x (by omega), hram x hx]
  · rw [hs.ram_of_lt (Nat.le_refl _), hram₁ _ (Nat.le_refl _), hptr]
  · rw [hs.txPins, hpins₁, hm₀]
    rfl
  · rw [hs.rxFlags, hflags₁, hm₀]
    rfl

/-- The bytes still to be transmitted are in the buffer from the pointer on. -/
structure Pending (bytes : List Byte) (m : Mcu) : Prop where
  quiet : ¬repeating m
  pins : m.txPins ≠ 0
  room : (m.ram bufferPtr).toNat + bytes.length ≤ bufferPtr.toNat
  at_pointer : ∀ i, ∀ h : i < bytes.length,
    m.ram (m.ram bufferPtr + BitVec.ofNat 8 i) = bytes[i]

theorem Tx.emit_cons (t : Tx) (a : Byte) (rest : List Byte) :
    t.emit (a :: rest) = t.emit [a] ++ (t.next a).emit rest := by
  simp [Tx.emit]

/-- The pointer moves on by one byte. -/
theorem Pending.tail {a : Byte} {rest : List Byte} {m m' : Mcu} (h : Pending (a :: rest) m)
    (hs : SendsByte a m m') (v : Byte) : Pending rest (m'.write tmp1 v) := by
  have hroom := h.room
  rw [List.length_cons] at hroom
  have hlt : bufferPtr.toNat = 243 := by decide
  have hptr : (m'.write tmp1 v).ram bufferPtr = m.ram bufferPtr + 1 := by
    rw [Mcu.write_ne _ _ (by decide), hs.pointer]
  have hnat : (m.ram bufferPtr + 1).toNat = (m.ram bufferPtr).toNat + 1 := by
    have h₁ : (1 : Byte).toNat = 1 := rfl
    rw [BitVec.toNat_add, h₁]
    omega
  constructor
  · rw [repeating, Mcu.write, hs.rxFlags]
    exact h.quiet
  · show m'.txPins ≠ 0
    rw [hs.txPins]
    exact h.pins
  · rw [hptr, hnat]
    omega
  · intro i hi
    have hx : m.ram bufferPtr + 1 + BitVec.ofNat 8 i = m.ram bufferPtr + BitVec.ofNat 8 (i + 1) :=
      (add_ofNat_succ _ i).symm
    have hlt' : (m.ram bufferPtr + BitVec.ofNat 8 (i + 1)).toNat < bufferPtr.toNat := by
      simp only [BitVec.toNat_add, BitVec.toNat_ofNat]
      omega
    have hne : m.ram bufferPtr + BitVec.ofNat 8 (i + 1) ≠ tmp1 := by
      intro hc
      rw [hc] at hlt'
      exact absurd hlt' (by decide)
    rw [hptr, hx, Mcu.write_ne _ _ hne, hs.ram _ hlt',
      h.at_pointer (i + 1) (by rw [List.length_cons]; omega), List.getElem_cons_succ]

/-- The loop sends what the bytes stand for. -/
theorem txLoop_ir : ∀ (bytes : List Byte) (m : Mcu), Pending bytes m →
    (txLoop bytes.length m).ir.map onOff = m.ir.map onOff ++ (txOf m).emit bytes
  | [], m, _ => by simp [txLoop, Tx.emit]
  | a :: rest, m, h => by
      have ha : m.ram (m.ram bufferPtr) = a := by
        have h₀ := h.at_pointer 0 (by simp)
        rwa [BitVec.add_zero] at h₀
      have hs := txByte_sendsByte h.quiet h.pins
      rw [ha] at hs
      have hnext := txLoop_ir rest _ (h.tail hs ((txByte m).ram tmp1 - 1))
      have htx : txOf ((txByte m).write tmp1 ((txByte m).ram tmp1 - 1)) = (txOf m).next a := by
        rw [← hs.tx]
        rfl
      rw [List.length_cons, txLoop, hnext, htx, Tx.emit_cons, ← List.append_assoc, ← hs.ir]
      rfl

/-- The buffer and the length byte hold these bytes, as `read_buffer` leaves them. -/
structure Loaded (bytes : List Byte) (m : Mcu) : Prop where
  length : (m.ctl CDATA).toNat = bytes.length
  pos : 0 < bytes.length
  le : bytes.length ≤ BUFFER_SIZE.toNat
  at_buffer : ∀ i, ∀ h : i < bytes.length, m.ram (buffer + BitVec.ofNat 8 i) = bytes[i]

/-- The state with these bytes read into the buffer, and nothing transmitted yet. -/
def Mcu.load (m : Mcu) (bytes : List Byte) : Mcu :=
  { (m.writeAll buffer bytes).setCtl CDATA (BitVec.ofNat 8 bytes.length) with ir := [] }

theorem Mcu.load_ram (m : Mcu) {bytes : List Byte} (h : bytes.length ≤ BUFFER_SIZE.toNat) {x : Byte}
    (hx : bufferPtr.toNat ≤ x.toNat) (hne : x ≠ controlPkt + CDATA) :
    (m.load bytes).ram x = m.ram x := by
  have hbuf : buffer.toNat = 93 := rfl
  have hlt : bufferPtr.toNat = 243 := rfl
  have h150 : BUFFER_SIZE.toNat = 150 := rfl
  show ((m.writeAll buffer bytes).setCtl CDATA _).ram x = _
  rw [Mcu.setCtl, Mcu.write_ne _ _ hne, Mcu.writeAll_ram_of_lt _ _ _ _ (by omega) (by omega)]

theorem Mcu.load_loaded (m : Mcu) {bytes : List Byte} (hpos : 0 < bytes.length)
    (h : bytes.length ≤ BUFFER_SIZE.toNat) : Loaded bytes (m.load bytes) := by
  have hbuf : buffer.toNat = 93 := rfl
  have h150 : BUFFER_SIZE.toNat = 150 := rfl
  refine ⟨?_, hpos, h, ?_⟩
  · have hctl : (m.load bytes).ctl CDATA = BitVec.ofNat 8 bytes.length :=
      Mcu.write_same (m.writeAll buffer bytes) (controlPkt + CDATA) _
    rw [hctl, BitVec.toNat_ofNat]
    omega
  · intro i hi
    have hne : buffer + BitVec.ofNat 8 i ≠ controlPkt + CDATA := by
      intro hc
      have h252 : (controlPkt + CDATA).toNat = 252 := rfl
      have := congrArg BitVec.toNat hc
      simp only [BitVec.toNat_add, BitVec.toNat_ofNat, hbuf] at this
      simp only [BitVec.toNat_add] at h252
      omega
    show ((m.writeAll buffer bytes).setCtl CDATA _).ram _ = _
    rw [Mcu.setCtl, Mcu.write_ne _ _ hne, Mcu.writeAll_ram_add _ _ _ (by omega) i hi]

theorem txDefaultCarrier_ram (m : Mcu) {x : Byte} (hx : x.toNat ≤ (controlPkt + CDATA).toNat) :
    (txDefaultCarrier m).ram x = m.ram x := by
  have h₂ : x ≠ controlPkt + (CDATA + 2) := by rintro rfl; revert hx; decide
  have h₃ : x ≠ controlPkt + (CDATA + 3) := by rintro rfl; revert hx; decide
  unfold txDefaultCarrier
  split_ifs
  · rw [Mcu.setCtl, Mcu.write_ne _ _ h₃, Mcu.setCtl, Mcu.write_ne _ _ h₂]
  · rfl

theorem txDefaultCarrier_fields (m : Mcu) :
    (txDefaultCarrier m).txPins = m.txPins ∧ (txDefaultCarrier m).rxFlags = m.rxFlags ∧
    (txDefaultCarrier m).ir = m.ir := by
  unfold txDefaultCarrier
  split_ifs <;> exact ⟨rfl, rfl, rfl⟩

/-- The settings leave everything up to the length byte alone. -/
theorem readSendSettings_ram (m : Mcu) {x : Byte} (hx : x.toNat ≤ (controlPkt + CDATA).toNat) :
    (readSendSettings m).ram x = m.ram x := by
  have h₁ : x ≠ controlPkt + (CDATA + 1) := by rintro rfl; revert hx; decide
  unfold readSendSettings
  split_ifs
  · rw [txDefaultCarrier_ram _ hx]
    exact Mcu.write_ne _ _ h₁
  · rfl

/-- There is always a pin to transmit on. -/
theorem readSendSettings_txPins (m : Mcu) : (readSendSettings m).txPins ≠ 0 := by
  unfold readSendSettings
  split_ifs
  · rw [(txDefaultCarrier_fields _).1]
    show (if m.ctl (CDATA + 1) &&& TX_MASK = 0 then TX_MASK else m.ctl (CDATA + 1) &&& TX_MASK) ≠ 0
    split_ifs with h
    · decide
    · exact h
  · show OLD_TX_MASK ≠ 0
    decide

theorem readSendSettings_frame (m : Mcu) :
    (readSendSettings m).rxFlags = m.rxFlags ∧ (readSendSettings m).ir = m.ir := by
  unfold readSendSettings
  split_ifs
  · exact (txDefaultCarrier_fields _).2
  · exact ⟨rfl, rfl⟩

/-- What the start of the transmission leaves alone. -/
theorem txStart_ram (m : Mcu) {x : Byte} (hx : x.toNat ≤ (controlPkt + CDATA).toNat)
    (h₁ : x ≠ bufferPtr) (h₂ : x ≠ tmp1) : (txStart m).ram x = m.ram x := by
  unfold txStart
  dsimp only
  rw [Mcu.write_ne _ _ h₂, Mcu.setTxState_ram, Mcu.write_ne _ _ h₁, readSendSettings_ram m hx]

theorem txStart_bufferPtr (m : Mcu) : (txStart m).ram bufferPtr = buffer := by
  unfold txStart
  dsimp only
  rw [Mcu.write_ne _ _ (by decide), Mcu.setTxState_ram, Mcu.write_same]

theorem txStart_tmp1 (m : Mcu) : (txStart m).ram tmp1 = m.ctl CDATA := by
  unfold txStart
  dsimp only
  rw [Mcu.write_same, Mcu.ctl, Mcu.setTxState_ram, Mcu.write_ne _ _ (by decide),
    readSendSettings_ram m (Nat.le_refl _), Mcu.ctl]

theorem txStart_pending {bytes : List Byte} {m : Mcu} (h : Loaded bytes m) (hq : ¬repeating m) :
    Pending bytes (txStart m) := by
  have hle := h.le
  have h150 : BUFFER_SIZE.toNat = 150 := rfl
  have hbuf : buffer.toNat = 93 := rfl
  have hlt : bufferPtr.toNat = 243 := rfl
  constructor
  · show ¬(readSendSettings m).rxFlags &&& RX_REPEATER_FLAG ≠ 0
    rw [(readSendSettings_frame m).1]
    exact hq
  · exact readSendSettings_txPins m
  · rw [txStart_bufferPtr]
    omega
  · intro i hi
    have hx : (buffer + BitVec.ofNat 8 i).toNat < bufferPtr.toNat := by
      simp only [BitVec.toNat_add, BitVec.toNat_ofNat, hbuf]
      omega
    have h₁ : buffer + BitVec.ofNat 8 i ≠ bufferPtr := by
      intro hc
      rw [hc] at hx
      omega
    have h₂ : buffer + BitVec.ofNat 8 i ≠ tmp1 := by
      intro hc
      rw [hc] at hx
      exact absurd hx (by decide)
    have h252 : (controlPkt + CDATA).toNat = 252 := rfl
    rw [txStart_bufferPtr, txStart_ram m (by omega) h₁ h₂, h.at_buffer i hi]

/-- The last byte and the last pulse that the firmware remembers, with the pins off. -/
def txInit (m : Mcu) : Tx := ⟨m.ram tmp3 &&& 0x7F == 0x7F, false, m.ram lastPulse⟩

theorem txOf_txStart (m : Mcu) : txOf (txStart m) = txInit m := by
  have h₃ := txStart_ram m (x := tmp3) (by decide) (by decide) (by decide)
  have hl := txStart_ram m (x := lastPulse) (by decide) (by decide) (by decide)
  have hs : (txStart m).txState = 0 := rfl
  simp [txOf, txInit, h₃, hl, hs]

/-- **`transmit_code` sends what the bytes stand for.** -/
theorem transmitCode_ir {bytes : List Byte} {m : Mcu} (h : Loaded bytes m) (hq : ¬repeating m) :
    (transmitCode m).ir.map onOff = m.ir.map onOff ++ (txInit m).emit bytes := by
  have hne : m.ctl CDATA ≠ 0 := by
    intro hc
    have hlen := h.length
    have hpos := h.pos
    rw [hc] at hlen
    exact absurd hlen.symm (by simpa using List.ne_nil_of_length_pos hpos)
  unfold transmitCode
  dsimp only
  rw [txStart_tmp1, if_neg hne, h.length, txLoop_ir bytes _ (txStart_pending h hq), txOf_txStart]
  show (readSendSettings m).ir.map onOff ++ _ = _
  rw [(readSendSettings_frame m).2]

end IguanaIR.Firmware
