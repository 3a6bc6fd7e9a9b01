import IguanaIR.Firmware.Loader
import IguanaIR.Firmware.Transfer

/-! # Silent steps

Most of what a handler does sends nothing: `Silent` says that nothing is written to the IN
endpoint, that the queue from the host and the features stay, that the endpoint is as halted as
it was, and that the code in the control packet is still there. -/

namespace IguanaIR.Firmware

structure Silent (m m' : Mcu) : Prop where
  sent : m'.sent = m.sent
  out : m'.out = m.out
  features : m'.features = m.features
  halted_iff : halted m' ↔ halted m
  code : m'.ctl CCODE = m.ctl CCODE

namespace Silent

theorem refl (m : Mcu) : Silent m m := ⟨rfl, rfl, rfl, Iff.rfl, rfl⟩

theorem trans {m₁ m₂ m₃ : Mcu} (h : Silent m₁ m₂) (h' : Silent m₂ m₃) : Silent m₁ m₃ :=
  ⟨h'.sent.trans h.sent, h'.out.trans h.out, h'.features.trans h.features,
    h'.halted_iff.trans h.halted_iff, h'.code.trans h.code⟩

theorem write {m : Mcu} {a : Byte} (v : Byte) (h : a ≠ loaderFlags) (h' : a ≠ controlPkt + CCODE) :
    Silent m (m.write a v) := by
  refine ⟨rfl, rfl, rfl, ?_, ?_⟩
  · unfold halted
    rw [Mcu.write_ne _ _ h.symm]
  · exact Mcu.write_ne _ _ h'.symm

theorem setReg (m : Mcu) (r : Reg) (v : Byte) : Silent m (m.setReg r v) :=
  ⟨rfl, rfl, rfl, Iff.rfl, rfl⟩

/-- One register more. -/
theorem thenReg {m m' : Mcu} (h : Silent m m') (r : Reg) (v : Byte) : Silent m (m'.setReg r v) :=
  h.trans (.setReg m' r v)

/-- A flag of the loader that does not halt the endpoint is cleared. -/
theorem clearFlag (m : Mcu) {flag : Byte} (h : ~~~flag &&& FLAG_HALTED = FLAG_HALTED) :
    Silent m (m.write loaderFlags (m.ram loaderFlags &&& ~~~flag)) := by
  refine ⟨rfl, rfl, rfl, ?_, ?_⟩
  · unfold halted
    rw [Mcu.write_same, BitVec.and_assoc, h]
  · exact Mcu.write_ne _ _ (by decide)

/-- What is silent once is silent any number of times. -/
theorem iterate {f : Mcu → Mcu} (h : ∀ m, Silent m (f m)) (n : ℕ) (m : Mcu) :
    Silent m (f^[n] m) := by
  induction n with
  | zero => exact refl m
  | succ n ih =>
      rw [Function.iterate_succ_apply']
      exact ih.trans (h _)

theorem of_keepsRest {m m' : Mcu} (h : KeepsRest m m') : Silent m m' := by
  have hhalted := h.halted_iff
  obtain ⟨ram, rfl, hram⟩ := h
  exact ⟨rfl, rfl, rfl, hhalted, hram (controlPkt + CCODE) (.inr (by decide))⟩

end Silent

/-! ### The receiver and the transmitter -/

theorem txPinsOff_silent (m : Mcu) : Silent m (txPinsOff m) := by
  unfold txPinsOff
  split_ifs
  · exact .setReg m _ _
  · exact .setReg m _ _

theorem rxDisable_silent (m : Mcu) : Silent m (rxDisable m) :=
  (show Silent m { m with rxEnabled := false } from ⟨rfl, rfl, rfl, Iff.rfl, rfl⟩).trans
    (txPinsOff_silent _)

theorem rxReset_silent (m : Mcu) : Silent m (rxReset m) := by
  have hclear : Silent m { m with
      rxFlags := m.rxFlags &&& ~~~RX_OVERFLOW_FLAG, readPtr := buffer, bufSize := 0 } :=
    ⟨rfl, rfl, rfl, Iff.rfl, rfl⟩
  have hoff := (hclear.trans (.write (a := bufferPtr) buffer (by decide) (by decide))).trans
    (rxDisable_silent _)
  unfold rxReset
  dsimp only
  split_ifs
  · exact hoff
  · exact hoff.trans ⟨rfl, rfl, rfl, Iff.rfl, rfl⟩

theorem slPulse_silent (m : Mcu) : Silent m (slPulse m) :=
  (Silent.setReg m _ _).trans (.write _ (by decide) (by decide))

theorem sendState_silent (a : Byte) (m : Mcu) : Silent m (sendState a m) := by
  have hstart : Silent m ((m.write tmp3 a).write tmp2 ((a &&& 0x7F) <<< 1)) :=
    (Silent.write _ (by decide) (by decide)).trans (.write _ (by decide) (by decide))
  unfold sendState
  dsimp only
  split_ifs
  · exact hstart
  · refine hstart.trans (.trans ?_ (.write (a := lastPulse) a (by decide) (by decide)))
    exact ⟨rfl, rfl, rfl, Iff.rfl, rfl⟩
  · exact hstart.trans ⟨rfl, rfl, rfl, Iff.rfl, rfl⟩

theorem sendLoop_silent (a : Byte) (m : Mcu) : Silent m (sendLoop a m) := by
  unfold sendLoop
  refine ((sendState_silent a m).trans ?_).trans (txPinsOff_silent _)
  refine Silent.trans ?_ (.iterate slPulse_silent _ _)
  exact ⟨rfl, rfl, rfl, Iff.rfl, rfl⟩

theorem txByte_silent (m : Mcu) : Silent m (txByte m) := by
  have hstart : Silent m ((m.write bufferPtr (m.ram bufferPtr + 1)).write tmp4
      (m.ram (m.ram bufferPtr))) :=
    (Silent.write _ (by decide) (by decide)).trans (.write _ (by decide) (by decide))
  unfold txByte
  dsimp only
  split_ifs
  · exact (hstart.trans (sendLoop_silent _ _)).trans (sendLoop_silent _ _)
  · exact hstart.trans (sendLoop_silent _ _)

theorem txLoop_silent (n : ℕ) : ∀ m : Mcu, Silent m (txLoop n m) := by
  induction n with
  | zero => exact Silent.refl
  | succ n ih =>
      intro m
      exact ((txByte_silent m).trans (.write (a := tmp1) _ (by decide) (by decide))).trans (ih _)

theorem readSendSettings_silent (m : Mcu) : Silent m (readSendSettings m) := by
  have hcarrier (m : Mcu) : Silent m (txDefaultCarrier m) := by
    unfold txDefaultCarrier
    split_ifs
    · exact (Silent.write _ (by decide) (by decide)).trans (.write _ (by decide) (by decide))
    · exact .refl m
  unfold readSendSettings
  split_ifs
  · refine Silent.trans ?_ (hcarrier _)
    exact (Silent.write _ (by decide) (by decide)).trans ⟨rfl, rfl, rfl, Iff.rfl, rfl⟩
  · exact ⟨rfl, rfl, rfl, Iff.rfl, rfl⟩

theorem transmitCode_silent (m : Mcu) : Silent m (transmitCode m) := by
  have hstart : Silent m (txStart m) := by
    refine ((readSendSettings_silent m).trans (.write (a := bufferPtr) buffer (by decide)
      (by decide))).trans (Silent.trans ?_ (.write (a := tmp1) _ (by decide) (by decide)))
    exact ⟨rfl, rfl, rfl, Iff.rfl, rfl⟩
  unfold transmitCode
  dsimp only
  split_ifs
  · exact hstart.trans ((Silent.write (a := tmp1) _ (by decide) (by decide)).trans
      (txLoop_silent _ _))
  · exact hstart.trans (txLoop_silent _ _)

theorem sendBuffer_silent (m : Mcu) : Silent m (sendBuffer m) :=
  ((transmitCode_silent m).trans (rxReset_silent _)).trans (.write (a := tmp3) _ (by decide)
    (by decide))

/-! ### The pins -/

theorem pinsReset_silent (m : Mcu) : Silent m (pinsReset m) := by
  unfold pinsReset
  split_ifs
  · dsimp only
    split_ifs
    · repeat apply Silent.thenReg
      exact .refl m
    · repeat apply Silent.thenReg
      exact .refl m
  · exact .refl m

theorem storePins_silent (m : Mcu) : Silent m (storePins m) := by
  unfold storePins
  dsimp only
  split_ifs
  · exact (Silent.write _ (by decide) (by decide)).trans (.setReg _ _ _)
  · refine (((Silent.write _ (by decide) (by decide)).trans (.write _ (by decide)
      (by decide))).trans (.setReg _ _ _)).trans (.setReg _ _ _)

theorem loadPins_silent (m : Mcu) : Silent m (loadPins m) := by
  have hset (m : Mcu) (v w : Byte) : Silent m ((m.setCtl CDATA v).setCtl (CDATA + 1) w) :=
    (Silent.write _ (by decide) (by decide)).trans (.write _ (by decide) (by decide))
  unfold loadPins
  dsimp only
  split_ifs
  · exact (Silent.write (a := controlPkt + CDATA) _ (by decide) (by decide)).trans (hset _ _ _)
  · exact ((hset m _ _).trans (.write (a := controlPkt + (CDATA + 1)) _ (by decide)
      (by decide))).trans (hset _ _ _)

/-! ### The flags of the loader -/

theorem bodyInit_silent (m : Mcu) : Silent m (bodyInit m) := by
  unfold bodyInit
  dsimp only
  refine Silent.trans (Silent.trans ?_ (.setReg _ .P05CR 0x02)) (.clearFlag _ (by decide))
  split_ifs <;> exact ⟨rfl, rfl, rfl, Iff.rfl, rfl⟩

theorem bodyReset_silent (m : Mcu) : Silent m (bodyReset m) :=
  ((show Silent m { m with rxFlags := m.rxFlags &&& ~~~RX_ON_FLAG } from
    ⟨rfl, rfl, rfl, Iff.rfl, rfl⟩).trans (pinsReset_silent _)).trans (.clearFlag _ (by decide))

theorem bodyBufclr_silent (m : Mcu) : Silent m (bodyBufclr m) :=
  (rxReset_silent m).trans (.clearFlag _ (by decide))

theorem onFlag_silent {flag : Byte} {step : Mcu → Mcu} (h : ∀ m, Silent m (step m)) (m : Mcu) :
    Silent m (onFlag flag step m) := by
  unfold onFlag
  split_ifs
  · exact .refl m
  · exact h m

theorem bodyFlags_silent (m : Mcu) : Silent m (bodyFlags m) :=
  ((onFlag_silent bodyInit_silent m).trans (onFlag_silent bodyReset_silent _)).trans
    (onFlag_silent bodyBufclr_silent _)

/-- The saved code and the control packet survive the flags. -/
theorem rxReset_ram (m : Mcu) {x : Byte} (h : x ≠ bufferPtr) : (rxReset m).ram x = m.ram x := by
  unfold rxReset rxDisable
  dsimp only
  split_ifs <;> rw [txPinsOff_ram] <;> exact Mcu.write_ne _ _ h

theorem pinsReset_ram (m : Mcu) : (pinsReset m).ram = m.ram := by
  unfold pinsReset
  dsimp only
  split_ifs <;> rfl

theorem bodyFlags_ram (m : Mcu) {x : Byte} (h : x ≠ bufferPtr) (h' : x ≠ loaderFlags) :
    (bodyFlags m).ram x = m.ram x := by
  have hinit (m : Mcu) : (bodyInit m).ram x = m.ram x := by
    unfold bodyInit
    dsimp only
    rw [Mcu.write_ne _ _ h']
    split_ifs <;> rfl
  have hreset (m : Mcu) : (bodyReset m).ram x = m.ram x := by
    unfold bodyReset
    dsimp only
    rw [Mcu.write_ne _ _ h', pinsReset_ram]
  have hbufclr (m : Mcu) : (bodyBufclr m).ram x = m.ram x := by
    unfold bodyBufclr
    dsimp only
    rw [Mcu.write_ne _ _ h', rxReset_ram _ h]
  have hflag {flag : Byte} {step : Mcu → Mcu} (hs : ∀ m, (step m).ram x = m.ram x) (m : Mcu) :
      (onFlag flag step m).ram x = m.ram x := by
    unfold onFlag
    split_ifs
    · rfl
    · exact hs m
  unfold bodyFlags
  rw [hflag hbufclr, hflag hreset, hflag hinit]

end IguanaIR.Firmware
