import IguanaIR.Firmware.Transmit

/-! # The calls of the transmit loop

The bytes that `transmit_code` passes to `send_loop`, each with the state that the call finds, and
the half carrier periods of one call.

The loop ends with `tx_end_pulse`, which counts down and goes back.  For no bytes at all it is
entered there, so the count wraps around to 255. -/

namespace IguanaIR.Firmware

/-! ### The calls -/

/-- The calls for the next byte of the buffer: the byte, or the last pulse and the byte. -/
def byteCalls (m : Mcu) : List (Byte × Mcu) :=
  let a := m.ram (m.ram bufferPtr)
  let m := (m.write bufferPtr (m.ram bufferPtr + 1)).write tmp4 a
  if insertsPulse a m then
    let m' := sendLoop (m.ram lastPulse) m
    [(m.ram lastPulse, m), (m'.ram tmp4, m')]
  else [(m.ram tmp4, m)]

/-- Those of `n` bytes. -/
def loopCalls : ℕ → Mcu → List (Byte × Mcu)
  | 0, _ => []
  | n + 1, m => byteCalls m ++ loopCalls n ((txByte m).write tmp1 ((txByte m).ram tmp1 - 1))

/-- Those of `transmit_code`. -/
def transmitCalls (m : Mcu) : List (Byte × Mcu) :=
  let m := txStart m
  if m.ram tmp1 = 0 then loopCalls 255 (m.write tmp1 (m.ram tmp1 - 1))
  else loopCalls (m.ram tmp1).toNat m

/-- The values that `sl_pulse` writes to the bank, for `n` rounds. -/
def slWrites : ℕ → Mcu → List Byte
  | 0, _ => []
  | n + 1, m => (m.reg m.txBank ^^^ m.txState) :: slWrites n (slPulse m)

/-- The half periods of one call. -/
def halfPeriods (a : Byte) (m : Mcu) : List Byte :=
  let m := sendState a m
  slWrites (m.ram tmp2).toNat m

/-! ### What is asked of them -/

/-- The bytes passed on are those of the buffer, and copies of the last pulse, each directly before
a space.  The last pulse is the one passed on last, and `last` before the first. -/
inductive WithRepeats : Byte → List Byte → List Byte → Prop where
  | nil (last : Byte) : WithRepeats last [] []
  | pulse {last a : Byte} {bytes calls : List Byte} (hpulse : Tx.isPulse a = true)
      (hrest : WithRepeats a bytes calls) : WithRepeats last (a :: bytes) (a :: calls)
  | space {last a : Byte} {bytes calls : List Byte} (hspace : Tx.isPulse a = false)
      (hrest : WithRepeats last bytes calls) : WithRepeats last (a :: bytes) (a :: calls)
  | repeated {last a : Byte} {bytes calls : List Byte} (hspace : Tx.isPulse a = false)
      (hrest : WithRepeats last bytes calls) : WithRepeats last (a :: bytes) (last :: a :: calls)

/-- All the pins for transmitting are off: new ones are active low, the old one active high. -/
def PinsOff (m : Mcu) : Prop :=
  if supportsChannels m then m.reg TX_BANK &&& TX_MASK = TX_MASK
  else m.reg OLD_TX_BANK &&& OLD_TX_MASK = 0

/-- A call makes twice as many half periods as the byte says, toggles the pins at each of them for
a pulse and never for a space, and leaves them off. -/
structure CarriesByte (a : Byte) (m : Mcu) : Prop where
  count : (halfPeriods a m).length = 2 * (a &&& 0x7F).toNat
  drives : ∀ i, ∀ h : i < (halfPeriods a m).length, (halfPeriods a m)[i] =
    m.reg m.txBank ^^^ if Tx.isPulse a ∧ i % 2 = 0 then m.txPins else 0
  off : PinsOff (sendLoop a m)

/-- The state that a call finds has the bank and the pins that the settings select, and the pins are
off if they were off at first. -/
structure Selected (m m' : Mcu) : Prop where
  quiet : ¬repeating m'
  bank : m'.txBank = (readSendSettings m).txBank
  pins : m'.txPins = (readSendSettings m).txPins
  off : PinsOff m → PinsOff m'

/-- The first `n` bytes of the buffer. -/
def bufferBytes (m : Mcu) (n : ℕ) : List Byte := m.readAll buffer n

/-- `transmit_code` passes on as many bytes of the buffer as the length byte says. -/
structure TransmitsExactly (m : Mcu) : Prop where
  calls : WithRepeats (m.ram lastPulse) (bufferBytes m (m.ctl CDATA).toNat)
    ((transmitCalls m).map (·.1))
  each : ∀ c ∈ transmitCalls m, Selected m c.2 ∧ CarriesByte c.1 c.2

/-! ### One call -/

theorem slWrites_length (n : ℕ) (m : Mcu) : (slWrites n m).length = n := by
  induction n generalizing m with
  | zero => rfl
  | succ n ih => rw [slWrites, List.length_cons, ih]

/-- Every second round undoes the one before. -/
theorem slWrites_getElem (n i : ℕ) (m : Mcu) (h : i < (slWrites n m).length) :
    (slWrites n m)[i] = m.reg m.txBank ^^^ if i % 2 = 0 then m.txState else 0 := by
  induction n generalizing i m with
  | zero => simp [slWrites] at h
  | succ n ih =>
      cases i with
      | zero => rfl
      | succ i =>
          have hreg : (slPulse m).reg (slPulse m).txBank = m.reg m.txBank ^^^ m.txState :=
            if_pos rfl
          have hi : i < (slWrites n (slPulse m)).length := by
            rw [slWrites, List.length_cons] at h
            omega
          simp only [slWrites, List.getElem_cons_succ]
          rw [ih i (slPulse m) hi, hreg, show (slPulse m).txState = m.txState from rfl,
            BitVec.xor_assoc]
          rcases Nat.mod_two_eq_zero_or_one i with heven | hodd
          · rw [if_pos heven, if_neg (by omega), BitVec.xor_self]
            rfl
          · have hzero : m.txState ^^^ 0 = m.txState := BitVec.xor_zero
            rw [if_neg (by omega), if_pos (by omega), hzero]

theorem pins_high : ∀ r : Byte, (r ||| TX_MASK) &&& TX_MASK = TX_MASK := by decide +kernel

theorem pins_low : ∀ r : Byte, (r &&& ~~~OLD_TX_MASK) &&& OLD_TX_MASK = 0 := by decide +kernel

theorem txPinsOff_off (m : Mcu) : PinsOff (txPinsOff m) := by
  by_cases h : supportsChannels m
  · have hoff : txPinsOff m = m.setReg TX_BANK (m.reg TX_BANK ||| TX_MASK) := if_pos h
    rw [hoff]
    unfold PinsOff
    rw [if_pos (show supportsChannels (m.setReg TX_BANK _) from h)]
    exact (congrArg (· &&& TX_MASK) (if_pos rfl)).trans (pins_high _)
  · have hoff : txPinsOff m = m.setReg OLD_TX_BANK (m.reg OLD_TX_BANK &&& ~~~OLD_TX_MASK) :=
      if_neg h
    rw [hoff]
    unfold PinsOff
    rw [if_neg (show ¬supportsChannels (m.setReg OLD_TX_BANK _) from h)]
    exact (congrArg (· &&& OLD_TX_MASK) (if_pos rfl)).trans (pins_low _)

theorem PinsOff.congr {m m' : Mcu} (h : PinsOff m) (hreg : m'.reg = m.reg)
    (hfeatures : m'.features = m.features) : PinsOff m' := by
  have hiff : supportsChannels m' ↔ supportsChannels m := by
    rw [supportsChannels, supportsChannels, hfeatures]
  unfold PinsOff at h ⊢
  by_cases hc : supportsChannels m
  · rw [if_pos hc] at h
    rwa [if_pos (hiff.mpr hc), hreg]
  · rw [if_neg hc] at h
    rwa [if_neg (fun hc' => hc (hiff.mp hc')), hreg]

/-- The settings of a call leave the registers and the selection alone. -/
theorem sendState_frame (a : Byte) (m : Mcu) :
    (sendState a m).reg = m.reg ∧ (sendState a m).txBank = m.txBank := by
  unfold sendState
  dsimp only
  split_ifs <;> exact ⟨rfl, rfl⟩

theorem txPinsOff_txBank (m : Mcu) : (txPinsOff m).txBank = m.txBank := by
  unfold txPinsOff
  split_ifs <;> rfl

theorem sendLoop_txBank (a : Byte) (m : Mcu) : (sendLoop a m).txBank = m.txBank := by
  rw [sendLoop, txPinsOff_txBank, slPulse_iterate Mcu.txBank (fun _ => rfl)]
  exact (sendState_frame a m).2

/-- **One call of `send_loop`** for any byte. -/
theorem carriesByte (a : Byte) {m : Mcu} (hq : ¬repeating m) : CarriesByte a m := by
  obtain ⟨hreg, hbank⟩ := sendState_frame a m
  have hcount : ((sendState a m).ram tmp2).toNat = 2 * (a &&& 0x7F).toNat := by
    have hne : tmp2 ≠ lastPulse := by decide
    simp only [sendState_ram a hq, hne, false_and, if_false, if_true]
    exact double_length a
  refine ⟨?_, fun i hi => ?_, txPinsOff_off _⟩
  · rw [halfPeriods, slWrites_length, hcount]
  · simp only [halfPeriods, slWrites_getElem, hreg, hbank, (sendState_fields a hq).1]
    congr 1
    by_cases hpulse : Tx.isPulse a = true <;> by_cases heven : i % 2 = 0 <;> simp [hpulse, heven]

/-! ### What the calls keep -/

section Calls

variable {base m : Mcu}

theorem Selected.write (h : Selected base m) (a v : Byte) : Selected base (m.write a v) :=
  ⟨h.quiet, h.bank, h.pins, h.off⟩

theorem Selected.sendLoop (h : Selected base m) (a : Byte) : Selected base (sendLoop a m) := by
  have hs := sendLoop_sends a h.quiet
  refine ⟨?_, ?_, ?_, fun _ => txPinsOff_off _⟩
  · rw [repeating, hs.rxFlags]
    exact h.quiet
  · rw [sendLoop_txBank, h.bank]
  · rw [hs.txPins, h.pins]

theorem Selected.txByte (h : Selected base m) : Selected base (txByte m) := by
  have h₀ := (h.write bufferPtr (m.ram bufferPtr + 1)).write tmp4 (m.ram (m.ram bufferPtr))
  simp only [Firmware.txByte]
  split_ifs
  · exact (h₀.sendLoop _).sendLoop _
  · exact h₀.sendLoop _

theorem byteCalls_selected (h : Selected base m) : ∀ c ∈ byteCalls m, Selected base c.2 := by
  have h₀ := (h.write bufferPtr (m.ram bufferPtr + 1)).write tmp4 (m.ram (m.ram bufferPtr))
  intro c hc
  simp only [byteCalls] at hc
  split_ifs at hc
  · simp only [List.mem_cons, List.not_mem_nil, or_false] at hc
    rcases hc with rfl | rfl
    · exact h₀
    · exact h₀.sendLoop _
  · obtain rfl := List.mem_singleton.mp hc
    exact h₀

theorem loopCalls_selected (n : ℕ) (h : Selected base m) :
    ∀ c ∈ loopCalls n m, Selected base c.2 := by
  induction n generalizing m with
  | zero => simp [loopCalls]
  | succ n ih =>
      intro c hc
      rcases List.mem_append.mp hc with hc | hc
      · exact byteCalls_selected h c hc
      · exact ih (h.txByte.write _ _) c hc

theorem txDefaultCarrier_frame (m : Mcu) :
    (txDefaultCarrier m).reg = m.reg ∧ (txDefaultCarrier m).features = m.features := by
  unfold txDefaultCarrier
  split_ifs <;> exact ⟨rfl, rfl⟩

/-- The settings leave the registers and the features alone. -/
theorem readSendSettings_reg (m : Mcu) :
    (readSendSettings m).reg = m.reg ∧ (readSendSettings m).features = m.features := by
  unfold readSendSettings
  split_ifs
  · exact txDefaultCarrier_frame _
  · exact ⟨rfl, rfl⟩

theorem txStart_selected (hq : ¬repeating m) : Selected m (txStart m) := by
  obtain ⟨hreg, hfeatures⟩ := readSendSettings_reg m
  refine ⟨?_, rfl, rfl, fun h => ?_⟩
  · show ¬(readSendSettings m).rxFlags &&& RX_REPEATER_FLAG ≠ 0
    rw [(readSendSettings_frame m).1]
    exact hq
  · exact h.congr hreg hfeatures

/-! ### The bytes of the calls -/

/-- The byte is passed on, with the last pulse in front of it or not, which it must be a space
for. -/
theorem byteCalls_bytes (hq : ¬repeating m) {a : Byte} (ha : m.ram (m.ram bufferPtr) = a) :
    (byteCalls m).map (·.1) = [a] ∨
      (byteCalls m).map (·.1) = [m.ram lastPulse, a] ∧ Tx.isPulse a = false := by
  obtain ⟨m₀, hm₀⟩ : ∃ m₀, m₀ = (m.write bufferPtr (m.ram bufferPtr + 1)).write tmp4 a := ⟨_, rfl⟩
  have htmp4 : m₀.ram tmp4 = a := by rw [hm₀, Mcu.write_same]
  have hlast : m₀.ram lastPulse = m.ram lastPulse := by
    rw [hm₀, Mcu.write_ne _ _ (by decide), Mcu.write_ne _ _ (by decide)]
  have hq₀ : ¬repeating m₀ := by
    rw [hm₀]
    exact hq
  simp only [byteCalls, ha, ← hm₀]
  split_ifs with hinsert
  · right
    have hafter : (sendLoop (m₀.ram lastPulse) m₀).ram tmp4 = a := by
      have h₃ : tmp4 ≠ tmp3 := by decide
      have hl : tmp4 ≠ lastPulse := by decide
      rw [(sendLoop_sends _ hq₀).ram tmp4 (by decide), htmp4]
      simp [h₃, hl]
    refine ⟨?_, by simpa [Tx.isPulse] using hinsert.1⟩
    rw [List.map_cons, List.map_singleton, hafter, hlast]
  · left
    rw [List.map_singleton, htmp4]

/-- The last pulse behind a byte. -/
theorem SendsByte.lastPulse_eq {a : Byte} {m' : Mcu} (h : SendsByte a m m') :
    m'.ram lastPulse = if Tx.isPulse a then a else m.ram lastPulse := by
  have hlast : m'.ram lastPulse = ((txOf m).next a).last := congrArg Tx.last h.tx
  rw [hlast]
  unfold Tx.next Tx.send
  split_ifs <;> simp_all [txOf]

theorem loopCalls_bytes (bytes : List Byte) (h : Pending bytes m) :
    WithRepeats (m.ram lastPulse) bytes ((loopCalls bytes.length m).map (·.1)) := by
  induction bytes generalizing m with
  | nil => exact .nil _
  | cons a rest ih =>
      have ha : m.ram (m.ram bufferPtr) = a := by
        have h₀ := h.at_pointer 0 (by simp)
        rwa [BitVec.add_zero] at h₀
      have hs := txByte_sendsByte h.quiet h.pins
      rw [ha] at hs
      have hrest := ih (h.tail hs ((txByte m).ram tmp1 - 1))
      rw [Mcu.write_ne _ _ (by decide), hs.lastPulse_eq] at hrest
      rw [List.length_cons, loopCalls, List.map_append]
      rcases byteCalls_bytes h.quiet ha with hbytes | ⟨hbytes, hspace⟩
      · rw [hbytes]
        cases hpulse : Tx.isPulse a with
        | true =>
            rw [hpulse, if_pos rfl] at hrest
            exact .pulse hpulse hrest
        | false =>
            rw [hpulse, if_neg (by decide)] at hrest
            exact .space hpulse hrest
      · rw [hspace, if_neg (by decide)] at hrest
        rw [hbytes]
        exact .repeated hspace hrest

/-- What `ir` records for a call. -/
def callEntry (c : Byte × Mcu) : Byte × ℕ :=
  (if Tx.isPulse c.1 then c.2.txPins else 0, 2 * (c.1 &&& 0x7F).toNat)

theorem sendLoop_ir (hq : ¬repeating m) (a : Byte) :
    (sendLoop a m).ir = m.ir ++ [callEntry (a, m)] := by
  have hs := sendLoop_sends a hq
  rw [hs.ir, hs.txState]
  rfl

theorem txByte_ir (hq : ¬repeating m) : (txByte m).ir = m.ir ++ (byteCalls m).map callEntry := by
  obtain ⟨m₀, hm₀⟩ : ∃ m₀, m₀ = (m.write bufferPtr (m.ram bufferPtr + 1)).write tmp4
    (m.ram (m.ram bufferPtr)) := ⟨_, rfl⟩
  have hq₀ : ¬repeating m₀ := by
    rw [hm₀]
    exact hq
  have hir : m₀.ir = m.ir := by
    rw [hm₀]
    rfl
  simp only [txByte, byteCalls, ← hm₀]
  split_ifs with hinsert
  · have hq₁ : ¬repeating (sendLoop (m₀.ram lastPulse) m₀) := by
      rw [repeating, (sendLoop_sends _ hq₀).rxFlags]
      exact hq₀
    rw [sendLoop_ir hq₁, sendLoop_ir hq₀, hir, List.append_assoc]
    rfl
  · rw [sendLoop_ir hq₀, hir]
    rfl

theorem txLoop_calls (n : ℕ) (h : Selected base m) :
    (txLoop n m).ir = m.ir ++ (loopCalls n m).map callEntry := by
  induction n generalizing m with
  | zero => simp [txLoop, loopCalls]
  | succ n ih =>
      have hbyte := txByte_ir h.quiet
      have hrest := ih (h.txByte.write tmp1 ((txByte m).ram tmp1 - 1))
      simp only [txLoop]
      rw [hrest, loopCalls, List.map_append, ← List.append_assoc, ← hbyte]
      rfl

/-- The calls are the ones that `transmit_code` makes, in order. -/
theorem transmitCode_calls (hq : ¬repeating m) :
    (transmitCode m).ir = m.ir ++ (transmitCalls m).map callEntry := by
  have hselected := txStart_selected hq
  have hir : (txStart m).ir = m.ir := (readSendSettings_frame m).2
  unfold transmitCode transmitCalls
  dsimp only
  split_ifs with hzero
  · rw [txLoop_calls 255 (hselected.write _ _)]
    exact congrArg (· ++ _) hir
  · rw [txLoop_calls _ hselected, hir]

/-! ### How many -/

theorem transmitCalls_selected (hq : ¬repeating m) : ∀ c ∈ transmitCalls m, Selected m c.2 := by
  have hselected := txStart_selected hq
  unfold transmitCalls
  dsimp only
  split_ifs
  · exact loopCalls_selected 255 (hselected.write _ _)
  · exact loopCalls_selected _ hselected

theorem bufferBytes_length (m : Mcu) (n : ℕ) : (bufferBytes m n).length = n := by
  simp [bufferBytes, Mcu.readAll]

/-- With a byte or more the bytes of the buffer are passed on. -/
theorem transmitCalls_bytes (hq : ¬repeating m) (hle : (m.ctl CDATA).toNat ≤ 150)
    (hne : m.ctl CDATA ≠ 0) :
    WithRepeats (m.ram lastPulse) (bufferBytes m (m.ctl CDATA).toNat)
      ((transmitCalls m).map (·.1)) := by
  have hlen := bufferBytes_length m (m.ctl CDATA).toNat
  have hpos : (m.ctl CDATA).toNat ≠ 0 := fun h => hne (BitVec.eq_of_toNat_eq h)
  have hloaded : Loaded (bufferBytes m (m.ctl CDATA).toNat) m := by
    refine ⟨hlen.symm, by omega, by rw [hlen]; exact hle, fun i hi => ?_⟩
    simp [bufferBytes, Mcu.readAll]
  have hbytes := loopCalls_bytes _ (txStart_pending hloaded hq)
  rw [txStart_ram m (by decide) (by decide) (by decide), hlen] at hbytes
  have hcalls : transmitCalls m = loopCalls (m.ctl CDATA).toNat (txStart m) := by
    unfold transmitCalls
    dsimp only
    rw [txStart_tmp1, if_neg hne]
  rw [hcalls]
  exact hbytes

theorem loopCalls_length (n : ℕ) (m : Mcu) : n ≤ (loopCalls n m).length := by
  induction n generalizing m with
  | zero => exact Nat.zero_le _
  | succ n ih =>
      have hbyte : 1 ≤ (byteCalls m).length := by
        simp only [byteCalls]
        split_ifs <;> simp
      have hrest := ih ((txByte m).write tmp1 ((txByte m).ram tmp1 - 1))
      rw [loopCalls, List.length_append]
      omega

/-- Without a byte there are 255 of them. -/
theorem transmitCalls_zero (hzero : m.ctl CDATA = 0) : 255 ≤ (transmitCalls m).length := by
  have hcalls : transmitCalls m = loopCalls 255 ((txStart m).write tmp1 (0 - 1)) := by
    unfold transmitCalls
    dsimp only
    rw [txStart_tmp1, if_pos hzero, hzero]
  rw [hcalls]
  exact loopCalls_length 255 _

theorem not_transmitsExactly (hzero : m.ctl CDATA = 0) : ¬TransmitsExactly m := by
  rintro ⟨hcalls, -⟩
  have hnil : bufferBytes m (m.ctl CDATA).toNat = [] := by
    rw [hzero]
    rfl
  rw [hnil] at hcalls
  generalize hmap : (transmitCalls m).map (·.1) = calls at hcalls
  cases hcalls
  have hlength := transmitCalls_zero hzero
  rw [List.map_eq_nil_iff.mp hmap] at hlength
  simp at hlength

/-- **`transmit_code`** passes on the bytes that it should, outside of repeater mode, exactly if
there is a byte to transmit. -/
theorem transmitsExactly_iff (hq : ¬repeating m) (hle : (m.ctl CDATA).toNat ≤ 150) :
    TransmitsExactly m ↔ m.ctl CDATA ≠ 0 := by
  constructor
  · intro h hzero
    exact not_transmitsExactly hzero h
  · intro hne
    refine ⟨transmitCalls_bytes hq hle hne, fun c hc => ?_⟩
    have hselected := transmitCalls_selected hq c hc
    exact ⟨hselected, carriesByte c.1 hselected.quiet⟩

end Calls

/-- Two spaces behind a pulse: the pulse is sent again between them. -/
theorem transmitsExactly_three :
    TransmitsExactly ((Mcu.cleared 0).load [0x05, 0x83, 0x84]) ∧
      (transmitCalls ((Mcu.cleared 0).load [0x05, 0x83, 0x84])).map (·.1) =
        [0x05, 0x83, 0x05, 0x84] :=
  ⟨(transmitsExactly_iff (by decide) (by decide)).mpr (by decide), by decide⟩

/-- With the length byte 0 there are 255 bytes, or more with the pulses put in. -/
theorem transmits_nothing_not :
    (Mcu.cleared 0).ctl CDATA = 0 ∧ 255 ≤ (transmitCode (Mcu.cleared 0)).ir.length ∧
      ¬TransmitsExactly (Mcu.cleared 0) := by
  have hzero : (Mcu.cleared 0).ctl CDATA = 0 := rfl
  have hlength := transmitCalls_zero hzero
  refine ⟨hzero, ?_, not_transmitsExactly hzero⟩
  rw [transmitCode_calls (by decide), List.length_append, List.length_map]
  omega

end IguanaIR.Firmware
