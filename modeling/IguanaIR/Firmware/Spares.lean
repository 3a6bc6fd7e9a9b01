import IguanaIR.Firmware.Flash
import IguanaIR.Firmware.MainLoop
import IguanaIR.Firmware.Transmit

/-! # What the code in the buffer survives

`Spares` is what a step of the firmware leaves alone: the buffer, one byte behind it, the flash,
and a receiver that is off.  A transmission spares the buffer and the length in the control packet
(`transmitCode_spares`), and `transmitted_stored` says which bytes it reads. -/

namespace IguanaIR.Firmware

/-! ### What stays as it is -/

/-- The receiver is off, and nothing that it received is left. -/
structure Mcu.Off (m : Mcu) : Prop where
  on : m.rxFlags &&& RX_ON_FLAG = 0
  overflow : m.rxFlags &&& RX_OVERFLOW_FLAG = 0
  enabled : m.rxEnabled = false
  size : m.bufSize = 0

/-- The buffer, the byte at `k`, the flash and a receiver that is off are left alone. -/
structure Spares (k : Byte) (m m' : Mcu) : Prop where
  ram : ∀ x, x < bufferPtr ∨ x = k → m'.ram x = m.ram x
  flash : m'.flash = m.flash
  flags : m.rxFlags &&& RX_ON_FLAG = 0 → m'.rxFlags &&& RX_ON_FLAG = 0
  off : m.Off → m'.Off

namespace Spares

variable {k : Byte} {m m₁ m₂ m₃ : Mcu}

theorem refl (m : Mcu) : Spares k m m := ⟨fun _ _ => rfl, rfl, id, id⟩

theorem trans (h : Spares k m₁ m₂) (h' : Spares k m₂ m₃) : Spares k m₁ m₃ := by
  refine ⟨?_, h'.flash.trans h.flash, fun hf => h'.flags (h.flags hf), fun ho => h'.off (h.off ho)⟩
  intro x hx
  rw [h'.ram x hx, h.ram x hx]

theorem of_ram {ram : Byte → Byte} (h : ∀ x, x < bufferPtr ∨ x = k → ram x = m.ram x) :
    Spares k m { m with ram := ram } := ⟨h, rfl, id, fun ho => ⟨ho.on, ho.overflow, ho.enabled, ho.size⟩⟩

/-- A variable behind the buffer. -/
theorem write {a : Byte} (v : Byte) (h : bufferPtr ≤ a) (h' : a ≠ k) : Spares k m (m.write a v) := by
  apply of_ram
  rintro x (hx | rfl)
  · apply if_neg
    rintro rfl
    exact absurd hx (BitVec.not_lt.mpr h)
  · exact if_neg h'.symm

theorem setReg (m : Mcu) (r : Reg) (v : Byte) : Spares k m (m.setReg r v) :=
  ⟨fun _ _ => rfl, rfl, id, fun ho => ⟨ho.on, ho.overflow, ho.enabled, ho.size⟩⟩

/-- One register more. -/
theorem thenReg (h : Spares k m₁ m₂) (r : Reg) (v : Byte) : Spares k m₁ (m₂.setReg r v) :=
  h.trans (.setReg m₂ r v)

theorem setTx (m : Mcu) (bank : Reg) (pins : Byte) : Spares k m (m.setTx bank pins) :=
  ⟨fun _ _ => rfl, rfl, id, fun ho => ⟨ho.on, ho.overflow, ho.enabled, ho.size⟩⟩

theorem setTxState (m : Mcu) (v : Byte) : Spares k m (m.setTxState v) :=
  ⟨fun _ _ => rfl, rfl, id, fun ho => ⟨ho.on, ho.overflow, ho.enabled, ho.size⟩⟩

/-- What spares the buffer once spares it any number of times. -/
theorem iterate {f : Mcu → Mcu} (h : ∀ m, Spares k m (f m)) (n : ℕ) (m : Mcu) :
    Spares k m (f^[n] m) := by
  induction n with
  | zero => exact refl m
  | succ n ih =>
      rw [Function.iterate_succ_apply']
      exact ih.trans (h _)

theorem stored {code : List Byte} (h : Spares k m m') (hcode : Stored m buffer code)
    (hlen : code.length ≤ 150) : Stored m' buffer code := by
  apply hcode.congr
  intro i hi
  exact h.ram _ (.inl (bufferByte_lt (by omega)))

end Spares

/-! ### The infrared side -/

section

variable {k : Byte}

theorem txPinsOff_spares (m : Mcu) : Spares k m (txPinsOff m) := by
  unfold txPinsOff
  split_ifs
  · exact .setReg m _ _
  · exact .setReg m _ _

theorem rxDisable_spares (m : Mcu) : Spares k m (rxDisable m) := by
  have hoff : Spares k m { m with rxEnabled := false } :=
    ⟨fun _ _ => rfl, rfl, id, fun ho => ⟨ho.on, ho.overflow, rfl, ho.size⟩⟩
  exact hoff.trans (txPinsOff_spares _)

theorem txPinsOff_receiver (m : Mcu) : (txPinsOff m).rxEnabled = m.rxEnabled ∧
    (txPinsOff m).bufSize = m.bufSize := by
  unfold txPinsOff
  split_ifs <;> exact ⟨rfl, rfl⟩

/-- Behind `rx_reset` a receiver that should be off is off. -/
theorem rxReset_off {m : Mcu} (h : m.rxFlags &&& RX_ON_FLAG = 0) : (rxReset m).Off := by
  have hon : (m.rxFlags &&& ~~~RX_OVERFLOW_FLAG) &&& RX_ON_FLAG = 0 := by
    rw [BitVec.and_assoc, BitVec.and_comm (~~~RX_OVERFLOW_FLAG), ← BitVec.and_assoc, h]
    exact BitVec.zero_and
  have hoverflow : (m.rxFlags &&& ~~~RX_OVERFLOW_FLAG) &&& RX_OVERFLOW_FLAG = 0 := by
    rw [BitVec.and_assoc, show ~~~RX_OVERFLOW_FLAG &&& RX_OVERFLOW_FLAG = 0 by decide]
    exact BitVec.and_zero
  unfold rxReset rxDisable
  dsimp only
  rw [txPinsOff_rxFlags, Mcu.write]
  dsimp only
  rw [if_pos hon]
  constructor
  · rw [txPinsOff_rxFlags]
    exact hon
  · rw [txPinsOff_rxFlags]
    exact hoverflow
  · rw [(txPinsOff_receiver _).1]
  · rw [(txPinsOff_receiver _).2]

theorem rxReset_spares (m : Mcu) (hk : k ≠ bufferPtr) : Spares k m (rxReset m) := by
  refine ⟨?_, ?_, fun h => (rxReset_off h).on, fun h => rxReset_off h.on⟩
  · rintro x (hx | rfl)
    · exact rxReset_ram m (BitVec.ne_of_lt hx)
    · exact rxReset_ram m hk
  · unfold rxReset rxDisable
    dsimp only
    split_ifs <;> exact (txPinsOff_spares (k := k) _).flash

/-! ### Transmitting -/

theorem slPulse_spares (m : Mcu) (h : k ≠ tmp2) : Spares k m (slPulse m) :=
  (Spares.setReg m _ _).trans (.write _ (by decide) h.symm)

/-- The variables of the transmit loop. -/
def txVariables : List Byte := [bufferPtr, tmp1, tmp2, tmp3, tmp4, lastPulse]

theorem txVariables_behind {a : Byte} (h : a ∈ txVariables) : bufferPtr ≤ a := by
  revert a
  decide

theorem Spares.writeTx {m : Mcu} {a : Byte} (v : Byte) (hk : k ∉ txVariables) (h : a ∈ txVariables) :
    Spares k m (m.write a v) := by
  apply Spares.write v (txVariables_behind h)
  rintro rfl
  exact hk h

theorem sendState_spares (a : Byte) (m : Mcu) (hk : k ∉ txVariables) : Spares k m (sendState a m) := by
  have hstart : Spares k m ((m.write tmp3 a).write tmp2 ((a &&& 0x7F) <<< 1)) :=
    (Spares.writeTx _ hk (by decide)).trans (.writeTx _ hk (by decide))
  unfold sendState
  dsimp only
  split_ifs
  · exact hstart
  · exact (hstart.trans (.setTxState _ _)).trans (.writeTx _ hk (by decide))
  · exact hstart.trans (.setTxState _ _)

theorem sendLoop_spares (a : Byte) (m : Mcu) (hk : k ∉ txVariables) : Spares k m (sendLoop a m) := by
  have hpulse : k ≠ tmp2 := by
    rintro rfl
    exact hk (by decide)
  have hir (m : Mcu) (ir : List (Byte × ℕ)) : Spares k m { m with ir := ir } :=
    ⟨fun _ _ => rfl, rfl, id, fun ho => ⟨ho.on, ho.overflow, ho.enabled, ho.size⟩⟩
  unfold sendLoop
  refine ((sendState_spares a m hk).trans ?_).trans (txPinsOff_spares _)
  exact (hir _ _).trans (.iterate (fun m => slPulse_spares m hpulse) _ _)

theorem txByte_spares (m : Mcu) (hk : k ∉ txVariables) : Spares k m (txByte m) := by
  have hstart : Spares k m ((m.write bufferPtr (m.ram bufferPtr + 1)).write tmp4
      (m.ram (m.ram bufferPtr))) :=
    (Spares.writeTx _ hk (by decide)).trans (.writeTx _ hk (by decide))
  unfold txByte
  dsimp only
  split_ifs
  · exact (hstart.trans (sendLoop_spares _ _ hk)).trans (sendLoop_spares _ _ hk)
  · exact hstart.trans (sendLoop_spares _ _ hk)

theorem txLoop_spares (hk : k ∉ txVariables) (n : ℕ) : ∀ m : Mcu, Spares k m (txLoop n m) := by
  induction n with
  | zero => exact Spares.refl
  | succ n ih =>
      intro m
      exact ((txByte_spares m hk).trans (.writeTx _ hk (by decide))).trans (ih _)

/-- The length in the control packet is not among the settings that are written. -/
theorem readSendSettings_spares (m : Mcu) : Spares (controlPkt + CDATA) m (readSendSettings m) := by
  have hcarrier (m : Mcu) : Spares (controlPkt + CDATA) m (txDefaultCarrier m) := by
    unfold txDefaultCarrier
    split_ifs
    · exact (Spares.write _ (by decide) (by decide)).trans (.write _ (by decide) (by decide))
    · exact .refl m
  unfold readSendSettings
  split_ifs
  · exact ((Spares.write _ (by decide) (by decide)).trans (.setTx _ _ _)).trans (hcarrier _)
  · exact .setTx m _ _

theorem txStart_spares (m : Mcu) : Spares (controlPkt + CDATA) m (txStart m) :=
  ((readSendSettings_spares m).trans (.write buffer (by decide) (by decide))).trans
    ((Spares.setTxState _ _).trans (.write _ (by decide) (by decide)))

theorem transmitCode_spares (m : Mcu) : Spares (controlPkt + CDATA) m (transmitCode m) := by
  have hk : controlPkt + CDATA ∉ txVariables := by decide
  unfold transmitCode
  dsimp only
  split_ifs
  · exact ((txStart_spares m).trans (.writeTx _ hk (by decide))).trans (txLoop_spares hk _ _)
  · exact (txStart_spares m).trans (txLoop_spares hk _ _)

/-- **A transmission** leaves the bytes and their length for the next one. -/
theorem sendBuffer_saves {code : List Byte} {m : Mcu} (hstored : Stored m buffer code)
    (hlen : code.length ≤ 150) (hflags : m.rxFlags &&& RX_ON_FLAG = 0) :
    Stored (sendBuffer m) buffer code ∧ (sendBuffer m).ram tmp3 = m.ctl CDATA ∧
      (sendBuffer m).flash = m.flash ∧ (sendBuffer m).Off := by
  have htransmit := transmitCode_spares m
  have hreset := htransmit.trans (rxReset_spares _ (by decide))
  have hctl : (rxReset (transmitCode m)).ctl CDATA = m.ctl CDATA := hreset.ram _ (.inr rfl)
  have hoff := rxReset_off (htransmit.flags hflags)
  have hsaved : Spares (controlPkt + CDATA) (rxReset (transmitCode m)) (sendBuffer m) :=
    .write _ (by decide) (by decide)
  refine ⟨(hreset.trans hsaved).stored hstored hlen, ?_, (hreset.trans hsaved).flash, hsaved.off hoff⟩
  rw [sendBuffer, Mcu.write_same, hctl]

/-! ### The bytes that are transmitted -/

theorem sendLoop_bufferPtr (a : Byte) (m : Mcu) : (sendLoop a m).ram bufferPtr = m.ram bufferPtr := by
  have hpulse (m : Mcu) : (slPulse m).ram bufferPtr = m.ram bufferPtr :=
    Mcu.write_ne _ _ (by decide)
  have hstate : (sendState a m).ram bufferPtr = m.ram bufferPtr := by
    unfold sendState
    dsimp only
    split_ifs
    · rfl
    · exact Mcu.write_ne _ _ (by decide)
    · rfl
  unfold sendLoop
  dsimp only
  rw [txPinsOff_ram, slPulse_iterate (fun m => m.ram bufferPtr) hpulse]
  exact hstate

theorem txByte_bufferPtr (m : Mcu) : (txByte m).ram bufferPtr = m.ram bufferPtr + 1 := by
  have hstart : ((m.write bufferPtr (m.ram bufferPtr + 1)).write tmp4
      (m.ram (m.ram bufferPtr))).ram bufferPtr = m.ram bufferPtr + 1 := by
    rw [Mcu.write_ne _ _ (by decide), Mcu.write_same]
  unfold txByte
  dsimp only
  split_ifs
  · rw [sendLoop_bufferPtr, sendLoop_bufferPtr, hstart]
  · rw [sendLoop_bufferPtr, hstart]

theorem txBytes_stored : ∀ (code : List Byte) {m : Mcu} {p : Byte}, m.ram bufferPtr = p →
    p.toNat + code.length ≤ bufferPtr.toNat → Stored m p code → txBytes code.length m = code
  | [], _, _, _, _, _ => rfl
  | a :: code, m, p, hptr, hroom, hstored => by
      have hlast : bufferPtr.toNat = 243 := rfl
      rw [List.length_cons] at hroom
      have hnext : (p + 1).toNat = p.toNat + 1 := Mcu.toNat_succ (by omega)
      have hfirst : m.ram p = a := by
        have h := hstored 0 (by simp)
        rwa [BitVec.add_zero] at h
      have hspares : Spares (controlPkt + CDATA) m
          ((txByte m).write tmp1 ((txByte m).ram tmp1 - 1)) :=
        (txByte_spares m (by decide)).trans (.write _ (by decide) (by decide))
      have hrest : Stored ((txByte m).write tmp1 ((txByte m).ram tmp1 - 1)) (p + 1) code := by
        intro i hi
        have hx : p + 1 + BitVec.ofNat 8 i = p + BitVec.ofNat 8 (i + 1) :=
          (add_ofNat_succ _ i).symm
        have hlt : p + BitVec.ofNat 8 (i + 1) < bufferPtr := by
          rw [BitVec.lt_def, BitVec.toNat_add, BitVec.toNat_ofNat]
          omega
        rw [hx, hspares.ram _ (.inl hlt), hstored (i + 1) (by rw [List.length_cons]; omega),
          List.getElem_cons_succ]
      have hptr' : ((txByte m).write tmp1 ((txByte m).ram tmp1 - 1)).ram bufferPtr = p + 1 := by
        rw [Mcu.write_ne _ _ (by decide), txByte_bufferPtr, hptr]
      rw [List.length_cons, txBytes, hptr, hfirst,
        txBytes_stored code hptr' (by omega) hrest]

/-- **`transmit_code` reads the code in the buffer**, as long as the control packet says. -/
theorem transmitted_stored {code : List Byte} {m : Mcu} (hpos : 0 < code.length)
    (hlen : code.length ≤ 150) (hctl : m.ctl CDATA = BitVec.ofNat 8 code.length)
    (hstored : Stored m buffer code) : transmitted m = code := by
  have hbuf : buffer.toNat = 93 := rfl
  have hlast : bufferPtr.toNat = 243 := rfl
  have hcount : (txStart m).ram tmp1 = BitVec.ofNat 8 code.length := by rw [txStart_tmp1, hctl]
  have hnat : (BitVec.ofNat 8 code.length).toNat = code.length := by
    rw [BitVec.toNat_ofNat]
    omega
  have hne : (txStart m).ram tmp1 ≠ 0 := by
    intro h
    have h0 : (0 : Byte).toNat = 0 := rfl
    rw [hcount] at h
    rw [h] at hnat
    omega
  unfold transmitted
  dsimp only
  rw [if_neg hne, hcount, hnat]
  exact txBytes_stored code (txStart_bufferPtr m) (by omega) ((txStart_spares m).stored hstored hlen)

/-! ### The flags of the loader -/

theorem pinsReset_spares (m : Mcu) : Spares k m (pinsReset m) := by
  unfold pinsReset
  split_ifs
  · dsimp only
    split_ifs
    · repeat apply Spares.thenReg
      exact .refl m
    · repeat apply Spares.thenReg
      exact .refl m
  · exact .refl m

/-- Turning the receiver off spares it when it is off. -/
theorem rxOff_spares (m : Mcu) : Spares k m { m with rxFlags := m.rxFlags &&& ~~~RX_ON_FLAG } := by
  have hclear {flag : Byte} (h : m.rxFlags &&& flag = 0) :
      (m.rxFlags &&& ~~~RX_ON_FLAG) &&& flag = 0 := by
    rw [BitVec.and_assoc, BitVec.and_comm (~~~RX_ON_FLAG), ← BitVec.and_assoc, h]
    exact BitVec.zero_and
  exact ⟨fun _ _ => rfl, rfl, hclear, fun ho => ⟨hclear ho.on, hclear ho.overflow, ho.enabled, ho.size⟩⟩

theorem bodyInit_spares (m : Mcu) (hk : loaderFlags ≠ k) : Spares k m (bodyInit m) := by
  unfold bodyInit
  dsimp only
  refine Spares.trans (Spares.trans ?_ (.setReg _ .P05CR 0x02)) (.write _ (by decide) hk)
  split_ifs
  · repeat apply Spares.thenReg
    exact .refl m
  · repeat apply Spares.thenReg
    exact .refl m

theorem bodyFlags_spares (m : Mcu) (hk : loaderFlags ≠ k) (hk' : k ≠ bufferPtr) :
    Spares k m (bodyFlags m) := by
  have hflag {flag : Byte} {step : Mcu → Mcu} (h : ∀ m, Spares k m (step m)) (m : Mcu) :
      Spares k m (onFlag flag step m) := by
    unfold onFlag
    split_ifs
    · exact .refl m
    · exact h m
  have hreset (m : Mcu) : Spares k m (bodyReset m) :=
    ((rxOff_spares m).trans (pinsReset_spares _)).trans (.write _ (by decide) hk)
  have hbufclr (m : Mcu) : Spares k m (bodyBufclr m) :=
    (rxReset_spares m hk').trans (.write _ (by decide) hk)
  exact ((hflag (fun m => bodyInit_spares m hk) m).trans (hflag hreset _)).trans (hflag hbufclr _)

end

end IguanaIR.Firmware
