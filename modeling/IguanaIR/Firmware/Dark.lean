import IguanaIR.Firmware.Body

/-! # Steps in the dark

What the firmware does before a transmission: nothing is transmitted, and the features of the
device and the mode of its receiver stay as they are. -/

namespace IguanaIR.Firmware

/-- Nothing is transmitted, and the features and the repeater stay as they are. -/
structure Dark (m m' : Mcu) : Prop where
  ir : m'.ir = m.ir
  features : m'.features = m.features
  repeating_iff : repeating m' ↔ repeating m

namespace Dark

variable {m m₁ m₂ m₃ : Mcu}

theorem refl (m : Mcu) : Dark m m := ⟨rfl, rfl, Iff.rfl⟩

theorem trans (h : Dark m₁ m₂) (h' : Dark m₂ m₃) : Dark m₁ m₃ :=
  ⟨h'.ir.trans h.ir, h'.features.trans h.features, h'.repeating_iff.trans h.repeating_iff⟩

theorem write (m : Mcu) (a v : Byte) : Dark m (m.write a v) := ⟨rfl, rfl, Iff.rfl⟩

theorem setReg (m : Mcu) (r : Reg) (v : Byte) : Dark m (m.setReg r v) := ⟨rfl, rfl, Iff.rfl⟩

/-- One register more. -/
theorem thenReg (h : Dark m₁ m₂) (r : Reg) (v : Byte) : Dark m₁ (m₂.setReg r v) :=
  h.trans (.setReg m₂ r v)

/-- Other flags of the receiver are cleared. -/
theorem clear (m : Mcu) {flags : Byte} (h : flags &&& RX_REPEATER_FLAG = RX_REPEATER_FLAG) :
    Dark m { m with rxFlags := m.rxFlags &&& flags } := by
  refine ⟨rfl, rfl, ?_⟩
  unfold repeating
  rw [BitVec.and_assoc, h]

end Dark

theorem txPinsOff_dark (m : Mcu) : Dark m (txPinsOff m) := by
  unfold txPinsOff
  split_ifs
  · exact .setReg ..
  · exact .setReg ..

theorem rxDisable_dark (m : Mcu) : Dark m (rxDisable m) :=
  (⟨rfl, rfl, Iff.rfl⟩ : Dark m { m with rxEnabled := false }).trans (txPinsOff_dark _)

theorem rxReset_dark (m : Mcu) : Dark m (rxReset m) := by
  have hclear : Dark m { m with
      rxFlags := m.rxFlags &&& ~~~RX_OVERFLOW_FLAG, readPtr := buffer, bufSize := 0 } :=
    (Dark.clear m (by decide)).trans ⟨rfl, rfl, Iff.rfl⟩
  have hoff := (hclear.trans (.write _ bufferPtr buffer)).trans (rxDisable_dark _)
  unfold rxReset
  dsimp only
  split_ifs
  · exact hoff
  · exact hoff.trans ⟨rfl, rfl, Iff.rfl⟩

theorem pinsReset_dark (m : Mcu) : Dark m (pinsReset m) := by
  unfold pinsReset
  dsimp only
  split_ifs
  · exact ⟨rfl, rfl, Iff.rfl⟩
  · exact ⟨rfl, rfl, Iff.rfl⟩
  · exact .refl m

theorem bodyInit_dark (m : Mcu) : Dark m (bodyInit m) := by
  unfold bodyInit
  dsimp only
  split_ifs
  · exact ⟨rfl, rfl, Iff.rfl⟩
  · exact ⟨rfl, rfl, Iff.rfl⟩

theorem bodyReset_dark (m : Mcu) : Dark m (bodyReset m) :=
  ((Dark.clear m (by decide)).trans (pinsReset_dark _)).trans (.write ..)

theorem bodyBufclr_dark (m : Mcu) : Dark m (bodyBufclr m) := (rxReset_dark m).trans (.write ..)

theorem onFlag_dark {flag : Byte} {step : Mcu → Mcu} (h : ∀ m, Dark m (step m)) (m : Mcu) :
    Dark m (onFlag flag step m) := by
  unfold onFlag
  split_ifs
  · exact .refl m
  · exact h m

theorem bodyFlags_dark (m : Mcu) : Dark m (bodyFlags m) :=
  ((onFlag_dark bodyInit_dark m).trans (onFlag_dark bodyReset_dark _)).trans
    (onFlag_dark bodyBufclr_dark _)

end IguanaIR.Firmware
