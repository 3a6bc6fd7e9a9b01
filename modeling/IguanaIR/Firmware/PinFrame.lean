import IguanaIR.Firmware.MainLoop
import IguanaIR.Firmware.TransmitCalls

/-! # The pins as a register

The free pins of a device are bits of two ports, with a control register each (`pinMask`).
`IG_DEV_SETPINS`, `IG_DEV_PINBURST` and `IG_DEV_SETPINCONFIG` write them, and nothing else does: the
transmit loop and the receiver work on other pins of the same ports.

What is read here is what was written, for the level outside of a pin is not modelled. -/

namespace IguanaIR.Firmware

/-! ### The bits -/

/-- The pins of a device without a slot, four of each port. -/
def portPins : Reg → Byte
  | .P0DATA => 0x0F
  | .P1DATA => 0x78
  | .P00CR | .P01CR | .P02CR | .P03CR | .P13CR | .P14CR | .P15CR | .P16CR => 0xFF
  | _ => 0

/-- The pins of a device with a slot: one port without the receiver's pin. -/
def slotPins : Reg → Byte
  | .P0DATA => 0xDF
  | .P00CR | .P01CR | .P02CR | .P03CR | .P04CR | .P06CR | .P07CR => 0xFF
  | _ => 0

/-- The bits of a register that belong to free pins. -/
def pinMask (features : Byte) (r : Reg) : Byte :=
  if ¬gpioFeatures features then 0
  else if features &&& SLOT_DEV = 0 then portPins r
  else slotPins r

theorem pinMask_ports {features : Byte} (hgpio : gpioFeatures features)
    (h : features &&& SLOT_DEV = 0) (r : Reg) : pinMask features r = portPins r := by
  rw [pinMask, if_neg (not_not.mpr hgpio), if_pos h]

theorem pinMask_slot {features : Byte} (hgpio : gpioFeatures features)
    (h : features &&& SLOT_DEV ≠ 0) (r : Reg) : pinMask features r = slotPins r := by
  rw [pinMask, if_neg (not_not.mpr hgpio), if_neg h]

/-- Where there are channels, they have a port of their own. -/
theorem pinMask_channels : ∀ features : Byte,
    features &&& (HAS_LEDS ||| HAS_BOTH ||| HAS_SOCKETS ||| SLOT_DEV) ≠ 0 →
      ∀ r ∈ [TX_BANK, .P12CR, .P13CR, .P14CR, .P15CR, .P16CR, .P17CR], pinMask features r = 0 := by
  decide +kernel

theorem pinMask_txBank {features : Byte}
    (h : features &&& (HAS_LEDS ||| HAS_BOTH ||| HAS_SOCKETS ||| SLOT_DEV) ≠ 0) :
    pinMask features TX_BANK = 0 := pinMask_channels features h _ (List.mem_cons_self ..)

/-- The one channel of old devices is not a free pin. -/
theorem pinMask_oldTxBank : ∀ features : Byte,
    features &&& (HAS_LEDS ||| HAS_BOTH ||| HAS_SOCKETS ||| SLOT_DEV) = 0 →
      OLD_TX_MASK &&& pinMask features OLD_TX_BANK = 0 ∧ pinMask features .P06CR = 0 := by
  decide +kernel

/-- The pull-up of the receiver. -/
theorem pinMask_pullup (features : Byte) : pinMask features .P05CR = 0 := by
  unfold pinMask
  split_ifs <;> rfl

theorem getElem_apart {a mask : Byte} (h : a &&& mask = 0) {i : ℕ} (hi : i < 8) :
    a[i] = false ∨ mask[i] = false := by
  have hbit : (a &&& mask)[i] = false := by simp [h]
  rwa [BitVec.getElem_and, Bool.and_eq_false_iff] at hbit

theorem and_not_apart {a mask : Byte} (h : a &&& mask = 0) (v : Byte) :
    v &&& ~~~a &&& mask = v &&& mask := by
  ext i hi
  rcases getElem_apart h hi with hbit | hbit <;> simp [hbit]

theorem xor_apart {a mask : Byte} (h : a &&& mask = 0) (v : Byte) :
    (v ^^^ a) &&& mask = v &&& mask := by
  ext i hi
  rcases getElem_apart h hi with hbit | hbit <;> simp [hbit]

/-! ### What keeps them -/

/-- The free pins stay as they are, and so does the receiver's pull-up where it is on. -/
structure KeepsPins (m m' : Mcu) : Prop where
  features : m'.features = m.features
  pullup : m.reg .P05CR = 0x02 → m'.reg .P05CR = 0x02
  repeating_iff : repeating m' ↔ repeating m
  bits : ∀ r, m'.reg r &&& pinMask m.features r = m.reg r &&& pinMask m.features r

namespace KeepsPins

variable {m m₁ m₂ m₃ : Mcu}

theorem refl (m : Mcu) : KeepsPins m m := ⟨rfl, id, Iff.rfl, fun _ => rfl⟩

theorem trans (h : KeepsPins m₁ m₂) (h' : KeepsPins m₂ m₃) : KeepsPins m₁ m₃ := by
  refine ⟨h'.features.trans h.features, fun hpullup => h'.pullup (h.pullup hpullup),
    h'.repeating_iff.trans h.repeating_iff, fun r => ?_⟩
  have hbits := h'.bits r
  rw [h.features] at hbits
  exact hbits.trans (h.bits r)

/-- Nothing but RAM, packets and flash. -/
theorem of_reg (hreg : m₂.reg = m₁.reg) (hfeatures : m₂.features = m₁.features)
    (hflags : m₂.rxFlags = m₁.rxFlags) : KeepsPins m₁ m₂ := by
  refine ⟨hfeatures, fun hpullup => by rwa [hreg], ?_, fun r => by rw [hreg]⟩
  unfold repeating
  rw [hflags]

theorem write (m : Mcu) (a v : Byte) : KeepsPins m (m.write a v) := .of_reg rfl rfl rfl

theorem setReg {r : Reg} {v : Byte} (hr : r ≠ .P05CR)
    (h : v &&& pinMask m.features r = m.reg r &&& pinMask m.features r) :
    KeepsPins m (m.setReg r v) := by
  refine ⟨rfl, fun hpullup => (if_neg (Ne.symm hr)).trans hpullup, Iff.rfl, fun x => ?_⟩
  show (if x = r then v else m.reg x) &&& _ = _
  split_ifs with hx
  · rw [hx]
    exact h
  · rfl

/-- A register without free pins. -/
theorem setReg_other {r : Reg} (hr : r ≠ .P05CR) (h : pinMask m.features r = 0) (v : Byte) :
    KeepsPins m (m.setReg r v) := by
  have hzero (v : Byte) : v &&& 0 = 0 := BitVec.and_zero
  apply setReg hr
  rw [h, hzero, hzero]

/-- The pull-up is turned on. -/
theorem setReg_pullup (m : Mcu) : KeepsPins m (m.setReg .P05CR 0x02) := by
  refine ⟨rfl, fun _ => rfl, Iff.rfl, fun r => ?_⟩
  show (if r = .P05CR then 0x02 else m.reg r) &&& _ = _
  split_ifs with hr
  · rw [hr, pinMask_pullup]
    exact BitVec.and_zero.trans BitVec.and_zero.symm
  · rfl

/-- Other flags of the receiver. -/
theorem flags {v : Byte} (h : v &&& RX_REPEATER_FLAG = m.rxFlags &&& RX_REPEATER_FLAG) :
    KeepsPins m { m with rxFlags := v } := by
  refine ⟨rfl, id, ?_, fun _ => rfl⟩
  unfold repeating
  rw [h]

theorem iterate {f : Mcu → Mcu} (h : ∀ m, KeepsPins m (f m)) (n : ℕ) (m : Mcu) :
    KeepsPins m (f^[n] m) := by
  induction n with
  | zero => exact refl m
  | succ n ih =>
      rw [Function.iterate_succ_apply']
      exact ih.trans (h _)

theorem writeAll (bytes : List Byte) (m : Mcu) (a : Byte) : KeepsPins m (m.writeAll a bytes) := by
  induction bytes generalizing m a with
  | nil => exact refl m
  | cons b rest ih => exact (write m a b).trans (ih _ _)

end KeepsPins

/-! ### The receiver -/

theorem txPinsOff_keepsPins (m : Mcu) : KeepsPins m (txPinsOff m) := by
  unfold txPinsOff
  split_ifs with h
  · exact .setReg_other (by decide) (pinMask_txBank h) _
  · exact .setReg (by decide) (and_not_apart (pinMask_oldTxBank m.features (not_not.mp h)).1 _)

theorem rxDisable_keepsPins (m : Mcu) : KeepsPins m (rxDisable m) :=
  (show KeepsPins m { m with rxEnabled := false } from .of_reg rfl rfl rfl).trans
    (txPinsOff_keepsPins _)

theorem rxReset_keepsPins (m : Mcu) : KeepsPins m (rxReset m) := by
  have hclear : KeepsPins m { m with
      rxFlags := m.rxFlags &&& ~~~RX_OVERFLOW_FLAG, readPtr := buffer, bufSize := 0 } := by
    have hflags : KeepsPins m { m with rxFlags := m.rxFlags &&& ~~~RX_OVERFLOW_FLAG } := by
      apply KeepsPins.flags
      rw [BitVec.and_assoc]
      rfl
    exact hflags.trans (.of_reg rfl rfl rfl)
  have hoff := (hclear.trans (.write _ bufferPtr buffer)).trans (rxDisable_keepsPins _)
  unfold rxReset
  dsimp only
  split_ifs
  · exact hoff
  · exact hoff.trans (.of_reg rfl rfl rfl)

theorem putByte_keepsPins (a : Byte) (m : Mcu) : KeepsPins m (putByte a m) := by
  unfold putByte
  dsimp only
  split_ifs
  · apply KeepsPins.flags
    rw [BitVec.and_or_distrib_right]
    exact BitVec.or_zero
  · exact .of_reg rfl rfl rfl
  · exact .of_reg rfl rfl rfl

/-- The capture interrupt, outside of repeater mode. -/
theorem tcapInt_keepsPins (rising : Bool) (timer : BitVec 16) {m : Mcu} (hq : ¬repeating m) :
    KeepsPins m (tcapInt rising timer m) := by
  have htimer (m : Mcu) (high low pulse : Byte) : KeepsPins m (m.setTimer high low pulse) :=
    .of_reg rfl rfl rfl
  unfold tcapInt
  dsimp only
  rw [if_neg (by exact hq)]
  have hload (m : Mcu) : KeepsPins m (loadValue m) := by
    unfold loadValue
    dsimp only
    exact (((htimer _ _ _ _).trans (.iterate (putByte_keepsPins _) _ _)).trans
      (htimer _ _ _ _)).trans (putByte_keepsPins _ _)
  exact (htimer _ _ _ _).trans (hload _)

theorem twrapInt_keepsPins (m : Mcu) : KeepsPins m (twrapInt m) := putByte_keepsPins _ m

/-! ### The transmit loop -/

/-- While a code is transmitted: the pins that are driven are not free pins. -/
structure Transmitting (base m : Mcu) : Prop where
  keeps : KeepsPins base m
  bank : m.txBank ≠ .P05CR
  quiet : ¬repeating m
  state : m.txState &&& pinMask m.features m.txBank = 0
  pins : m.txPins &&& pinMask m.features m.txBank = 0

namespace Transmitting

variable {base m : Mcu}

theorem write (h : Transmitting base m) (a v : Byte) : Transmitting base (m.write a v) :=
  ⟨h.keeps.trans (.write m a v), h.bank, h.quiet, h.state, h.pins⟩

theorem slPulse (h : Transmitting base m) : Transmitting base (slPulse m) := by
  have htoggle : KeepsPins m (m.setReg m.txBank (m.reg m.txBank ^^^ m.txState)) :=
    .setReg h.bank (xor_apart h.state _)
  exact ⟨(h.keeps.trans htoggle).trans (.write _ _ _), h.bank, h.quiet, h.state, h.pins⟩

theorem txPinsOff (h : Transmitting base m) : Transmitting base (txPinsOff m) := by
  have hkeeps := txPinsOff_keepsPins m
  refine ⟨h.keeps.trans hkeeps, by rw [txPinsOff_txBank]; exact h.bank,
    fun hr => h.quiet (hkeeps.repeating_iff.mp hr), ?_, ?_⟩
  · rw [txPinsOff_txState, txPinsOff_txBank, hkeeps.features]
    exact h.state
  · rw [txPinsOff_txPins, txPinsOff_txBank, hkeeps.features]
    exact h.pins

theorem sendState (h : Transmitting base m) (a : Byte) : Transmitting base (sendState a m) := by
  have h₀ := (h.write tmp3 a).write tmp2 ((a &&& 0x7F) <<< 1)
  unfold Firmware.sendState
  dsimp only
  split_ifs
  · exact h₀
  · exact ⟨h₀.keeps.trans (.of_reg rfl rfl rfl), h₀.bank, h₀.quiet, h.pins, h.pins⟩
  · exact ⟨h₀.keeps.trans (.of_reg rfl rfl rfl), h₀.bank, h₀.quiet, BitVec.zero_and, h.pins⟩

theorem iterate (h : Transmitting base m) (n : ℕ) : Transmitting base (Firmware.slPulse^[n] m) := by
  induction n with
  | zero => exact h
  | succ n ih =>
      rw [Function.iterate_succ_apply']
      exact ih.slPulse

theorem sendLoop (h : Transmitting base m) (a : Byte) : Transmitting base (sendLoop a m) := by
  have hstate := h.sendState a
  have hir : Transmitting base { Firmware.sendState a m with
      ir := (Firmware.sendState a m).ir ++
        [((Firmware.sendState a m).txState, ((Firmware.sendState a m).ram tmp2).toNat)] } :=
    ⟨hstate.keeps.trans (.of_reg rfl rfl rfl), hstate.bank, hstate.quiet, hstate.state, hstate.pins⟩
  exact (hir.iterate _).txPinsOff

theorem txByte (h : Transmitting base m) : Transmitting base (txByte m) := by
  have h₀ := (h.write bufferPtr (m.ram bufferPtr + 1)).write tmp4 (m.ram (m.ram bufferPtr))
  unfold Firmware.txByte
  dsimp only
  split_ifs
  · exact (h₀.sendLoop _).sendLoop _
  · exact h₀.sendLoop _

theorem txLoop (n : ℕ) (h : Transmitting base m) : Transmitting base (txLoop n m) := by
  induction n generalizing m with
  | zero => exact h
  | succ n ih => exact ih (h.txByte.write _ _)

end Transmitting

theorem txDefaultCarrier_keepsPins (m : Mcu) : KeepsPins m (txDefaultCarrier m) := by
  unfold txDefaultCarrier
  split_ifs
  · exact (KeepsPins.write m _ _).trans (.write _ _ _)
  · exact .refl m

/-- The settings choose pins of the channels. -/
theorem txStart_transmitting {m : Mcu} (hq : ¬repeating m) : Transmitting m (txStart m) := by
  have hsettings : KeepsPins m (readSendSettings m) := by
    unfold readSendSettings
    split_ifs
    · refine KeepsPins.trans ?_ (txDefaultCarrier_keepsPins _)
      exact .of_reg rfl rfl rfl
    · exact .of_reg rfl rfl rfl
  have hpins : (readSendSettings m).txBank ≠ .P05CR ∧
      (readSendSettings m).txPins &&& pinMask m.features (readSendSettings m).txBank = 0 := by
    by_cases h : supportsChannels m
    · have hcarrier (m : Mcu) : (txDefaultCarrier m).txBank = m.txBank := by
        unfold txDefaultCarrier
        split_ifs <;> rfl
      have hbank : (readSendSettings m).txBank = TX_BANK := by
        rw [readSendSettings, if_pos h]
        exact hcarrier _
      rw [hbank, pinMask_txBank h]
      exact ⟨by decide, BitVec.and_zero⟩
    · rw [readSendSettings, if_neg h]
      exact ⟨(by decide : OLD_TX_BANK ≠ .P05CR), (pinMask_oldTxBank m.features (not_not.mp h)).1⟩
  refine ⟨hsettings.trans (.of_reg rfl rfl rfl), hpins.1,
    fun hr => hq (hsettings.repeating_iff.mp hr), BitVec.zero_and, ?_⟩
  show (readSendSettings m).txPins &&&
    pinMask (readSendSettings m).features (readSendSettings m).txBank = 0
  rw [hsettings.features]
  exact hpins.2

theorem transmitCode_keepsPins {m : Mcu} (hq : ¬repeating m) : KeepsPins m (transmitCode m) := by
  have hstart := txStart_transmitting hq
  unfold transmitCode
  dsimp only
  split_ifs
  · exact ((hstart.write _ _).txLoop _).keeps
  · exact (hstart.txLoop _).keeps

theorem sendBuffer_keepsPins {m : Mcu} (hq : ¬repeating m) : KeepsPins m (sendBuffer m) :=
  ((transmitCode_keepsPins hq).trans (rxReset_keepsPins _)).trans (.write _ _ _)

/-! ### Packets -/

theorem readPacket_keepsPins {m m' : Mcu} (h : readPacket m = some m') : KeepsPins m m' := by
  unfold readPacket at h
  cases hout : m.out with
  | nil =>
      rw [hout] at h
      cases h
  | cons p out =>
      rw [hout] at h
      dsimp only at h
      split_ifs at h
      obtain rfl := Option.some.inj h
      refine KeepsPins.trans ?_ (.writeAll p _ controlPkt)
      exact .of_reg rfl rfl rfl

theorem readControl_keepsPins {m m' : Mcu} {code : Byte} (h : readControl m = some (m', code)) :
    KeepsPins m m' := by
  simp only [readControl, Option.bind_eq_bind, Option.bind_eq_some_iff, Option.some.injEq] at h
  obtain ⟨m₁, hread, x, -, heq⟩ := h
  obtain ⟨rfl, -⟩ := Prod.mk.inj heq
  exact (KeepsPins.writeAll _ m controlPkt).trans (readPacket_keepsPins hread)

theorem readLoopRb_keepsPins (bytes : List Byte) (m : Mcu) :
    KeepsPins m (readLoopRb m bytes).1 := by
  induction bytes generalizing m with
  | nil => exact .refl m
  | cons b rest ih =>
      have hstore : KeepsPins m (storeByte m b) := .of_reg rfl rfl rfl
      unfold readLoopRb
      dsimp only
      split_ifs
      · exact .refl m
      · exact hstore
      · exact (hstore.trans (.write _ _ _)).trans (ih _)

theorem readFragments_keepsPins (out : List (List Byte)) {m : Mcu} {r : Mcu × Bool}
    (h : readFragments m out = some r) : KeepsPins m r.1 := by
  induction out generalizing m with
  | nil => cases h
  | cons p out ih =>
      rw [readFragments] at h
      split_ifs at h
      obtain ⟨m₀, hm₀⟩ :
          ∃ m₀, m₀ = ({ m with out := out } : Mcu).write tmp2 (BitVec.ofNat 8 p.length) := ⟨_, rfl⟩
      have hloop : KeepsPins m (readLoopRb m₀ p).1 := by
        have hstart : KeepsPins m m₀ := by
          rw [hm₀]
          exact .of_reg rfl rfl rfl
        exact hstart.trans (readLoopRb_keepsPins p m₀)
      rw [← hm₀] at h
      rcases hend : readLoopRb m₀ p with ⟨m₁, e⟩
      rw [hend] at h hloop
      cases e with
      | done =>
          obtain rfl := Option.some.inj h
          exact hloop
      | overflow =>
          obtain rfl := Option.some.inj h
          exact hloop.trans (.write _ _ _)
      | fragment => exact hloop.trans (ih h)

theorem readBufferReal_keepsPins {n : Byte} {m : Mcu} {r : Mcu × Bool}
    (h : readBufferReal n m = some r) : KeepsPins m r.1 := by
  unfold readBufferReal at h
  split_ifs at h
  · obtain rfl := Option.some.inj h
    exact .refl m
  · refine KeepsPins.trans ?_ (readFragments_keepsPins _ h)
    exact .of_reg rfl rfl rfl

theorem writePacket_keepsPins {size data : Byte} {m m' : Mcu}
    (h : writePacket size data m = some m') : KeepsPins m m' := by
  unfold writePacket at h
  dsimp only at h
  split_ifs at h
  obtain rfl := Option.some.inj h
  exact .of_reg rfl rfl rfl

theorem writeControl_keepsPins {size : Byte} {m m' : Mcu} (h : writeControl size m = some m') :
    KeepsPins m m' := by
  refine KeepsPins.trans ?_ (writePacket_keepsPins h)
  exact .of_reg rfl rfl rfl

/-! ### The loader -/

theorem execSsc_keepsPins (f : Ssc) (m : Mcu) : KeepsPins m (execSsc f m) := by
  have hparameters : KeepsPins m (sscParameters f m) := .of_reg rfl rfl rfl
  unfold execSsc
  cases f with
  | read => exact hparameters.trans (.writeAll _ _ _)
  | write => exact hparameters.trans (.of_reg rfl rfl rfl)
  | erase => exact hparameters.trans (.of_reg rfl rfl rfl)

theorem sumInBuffer_keepsPins (m : Mcu) : KeepsPins m (sumInBuffer m) :=
  (KeepsPins.write m _ _).trans (.write _ _ _)

theorem sumPage_keepsPins (m : Mcu) : KeepsPins m (sumPage m) :=
  (execSsc_keepsPins .read m).trans (sumInBuffer_keepsPins _)

theorem loadSum_keepsPins (m : Mcu) : KeepsPins m (loadSum m) :=
  (KeepsPins.write m _ _).trans (.write _ _ _)

theorem mainGetversion_keepsPins {m m' : Mcu} (h : mainGetversion m = some m') : KeepsPins m m' := by
  have hread : KeepsPins m (execSsc .read (m.write tmp3 (BitVec.ofNat 8 (BODY_JUMPS / 64)))) :=
    (KeepsPins.write m _ _).trans (execSsc_keepsPins _ _)
  have hanswer (m : Mcu) : KeepsPins m (((m.setCtl CCODE IG_DEV_GETVERSION).setCtl CDATA
      ((m.setCtl CCODE IG_DEV_GETVERSION).ram (buffer + 1))).setCtl (CDATA + 1) VERSION_ID_HIGH) :=
    ((KeepsPins.write m _ _).trans (.write _ _ _)).trans (.write _ _ _)
  exact (hread.trans (hanswer _)).trans (writeControl_keepsPins h)

theorem writePage_keepsPins {m m' : Mcu} (h : writePage m = some m') : KeepsPins m m' := by
  have hflash : KeepsPins m (execSsc .write (execSsc .erase (m.write tmp3 (m.ctl CDATA)))) :=
    ((KeepsPins.write m _ _).trans (execSsc_keepsPins _ _)).trans (execSsc_keepsPins _ _)
  have hload (m : Mcu) : KeepsPins m (loadSum ((sumPage m).setCtl CCODE IG_DEV_WRITEBLOCK)) :=
    ((sumPage_keepsPins m).trans (.write _ _ _)).trans (loadSum_keepsPins _)
  exact (hflash.trans (hload _)).trans (writeControl_keepsPins h)

theorem checkPage_keepsPins {m m' : Mcu} (h : checkPage m = some m') : KeepsPins m m' := by
  have hsum := sumInBuffer_keepsPins m
  unfold checkPage at h
  dsimp only at h
  split_ifs at h
  · exact writePage_keepsPins h
  · exact hsum.trans (writePage_keepsPins h)
  · refine hsum.trans (KeepsPins.trans ?_ (writeControl_keepsPins h))
    exact (KeepsPins.write _ _ _).trans (loadSum_keepsPins _)

theorem mainProg_keepsPins {m m' : Mcu} (h : mainProg m = some m') : KeepsPins m m' := by
  simp only [mainProg, Option.bind_eq_bind, Option.bind_eq_some_iff] at h
  obtain ⟨r, hread, h⟩ := h
  refine (readBufferReal_keepsPins hread).trans ?_
  split_ifs at h
  · exact checkPage_keepsPins h
  · exact (KeepsPins.write _ _ _).trans (writeControl_keepsPins h)

theorem mainChksum_keepsPins {m m' : Mcu} (h : mainChksum m = some m') : KeepsPins m m' := by
  have hsum : KeepsPins m (sumPage (m.write tmp3 (m.ctl CDATA))) :=
    (KeepsPins.write m _ _).trans (sumPage_keepsPins _)
  refine hsum.trans (KeepsPins.trans ?_ (writeControl_keepsPins h))
  exact (KeepsPins.write _ _ _).trans (loadSum_keepsPins _)

/-! ### The body -/

/-- The commands that write the free pins, or that run code which is not in the body's handlers. -/
def pinWriters : List Byte :=
  [IG_DEV_SETPINS, IG_DEV_PINBURST, IG_DEV_SETPINCONFIG, IG_DEV_EXECUTE, IG_DEV_REPEATER, IG_DEV_NOUSB]

/-- The flags do not ask for a reset of the pins. -/
def PinsStay (m : Mcu) : Prop := m.ram loaderFlags &&& FLAG_BODY_RESET = 0

instance : DecidablePred PinsStay := fun _ => inferInstanceAs (Decidable (_ = _))

theorem bodyInit_keepsPins (m : Mcu) : KeepsPins m (bodyInit m) := by
  have hflags (m : Mcu) : KeepsPins m ((m.setReg .P05CR 0x02).write loaderFlags
      ((m.setReg .P05CR 0x02).ram loaderFlags &&& ~~~FLAG_BODY_INIT)) :=
    (KeepsPins.setReg_pullup m).trans (.write _ _ _)
  unfold bodyInit
  refine KeepsPins.trans ?_ (hflags _)
  split_ifs with h
  · have hother {r : Reg} (hr : r ∈ [TX_BANK, .P12CR, .P13CR, .P14CR, .P15CR, .P16CR, .P17CR])
        {m' : Mcu} (hkeeps : KeepsPins m m') (v : Byte) : KeepsPins m (m'.setReg r v) := by
      have hpullup : ∀ r ∈ [TX_BANK, .P12CR, .P13CR, .P14CR, .P15CR, .P16CR, .P17CR], r ≠ .P05CR := by
        decide
      apply hkeeps.trans
      apply KeepsPins.setReg_other (hpullup r hr)
      rw [hkeeps.features]
      exact pinMask_channels m.features h r hr
    dsimp only
    repeat apply hother (by decide)
    exact .refl m
  · obtain ⟨hold, hcontrol⟩ := pinMask_oldTxBank m.features (not_not.mp h)
    have hchannel : KeepsPins m (m.setReg OLD_TX_BANK (m.reg OLD_TX_BANK &&& ~~~OLD_TX_MASK)) :=
      .setReg (by decide) (and_not_apart hold _)
    have hmode (m' : Mcu) (hf : m'.features = m.features) : KeepsPins m' (m'.setReg .P06CR 1) := by
      apply KeepsPins.setReg_other (by decide)
      rw [hf]
      exact hcontrol
    exact hchannel.trans (hmode _ rfl)

theorem bodyInit_pinsStay {m : Mcu} (h : PinsStay m) : PinsStay (bodyInit m) := by
  have hram : (bodyInit m).ram loaderFlags = m.ram loaderFlags &&& ~~~FLAG_BODY_INIT := by
    unfold bodyInit
    dsimp only
    rw [Mcu.write_same]
    split_ifs <;> rfl
  unfold PinsStay
  rw [hram, BitVec.and_assoc]
  exact h

theorem bodyBufclr_keepsPins (m : Mcu) : KeepsPins m (bodyBufclr m) :=
  (rxReset_keepsPins m).trans (.write _ _ _)

theorem bodyFlags_keepsPins {m : Mcu} (h : PinsStay m) : KeepsPins m (bodyFlags m) := by
  have hinit : KeepsPins m (onFlag FLAG_BODY_INIT bodyInit m) ∧
      PinsStay (onFlag FLAG_BODY_INIT bodyInit m) := by
    unfold onFlag
    split_ifs
    · exact ⟨.refl m, h⟩
    · exact ⟨bodyInit_keepsPins m, bodyInit_pinsStay h⟩
  have hreset : onFlag FLAG_BODY_RESET bodyReset (onFlag FLAG_BODY_INIT bodyInit m) =
      onFlag FLAG_BODY_INIT bodyInit m := if_pos hinit.2
  unfold bodyFlags
  rw [hreset]
  refine hinit.1.trans ?_
  generalize onFlag FLAG_BODY_INIT bodyInit m = m₁
  unfold onFlag
  split_ifs
  · exact .refl m₁
  · exact bodyBufclr_keepsPins m₁

/-! ### The handlers -/

theorem hasGpios_keepsPins {m : Mcu} {r : Mcu × Bool} (h : hasGpios m = some r) :
    KeepsPins m r.1 := by
  unfold hasGpios at h
  split_ifs at h
  · obtain rfl := Option.some.inj h
    exact .refl m
  · obtain ⟨m', hwrite, rfl⟩ := Option.map_eq_some_iff.mp h
    exact (KeepsPins.write m _ _).trans (writeControl_keepsPins hwrite)

theorem loadPins_keepsPins (m : Mcu) : KeepsPins m (loadPins m) := by
  unfold loadPins
  dsimp only
  split_ifs <;> exact .of_reg rfl rfl rfl

theorem loadConfigs_keepsPins (m : Mcu) : KeepsPins m (loadConfigs m) := by
  unfold loadConfigs
  dsimp only
  split_ifs <;> exact .of_reg rfl rfl rfl

theorem getPinsBody_keepsPins {m m' : Mcu} (h : getPinsBody m = some m') : KeepsPins m m' := by
  simp only [getPinsBody, getPins, Option.bind_eq_bind, Option.bind_eq_some_iff,
    Option.some.injEq] at h
  obtain ⟨m₂, ⟨r, hgpios, hload⟩, hanswer⟩ := h
  refine ((hasGpios_keepsPins hgpios).trans ?_).trans (writeControl_keepsPins hanswer)
  rw [← hload]
  split_ifs
  · exact loadPins_keepsPins _
  · exact .refl _

theorem getPinConfig_keepsPins {m m' : Mcu} (h : getPinConfig m = some m') : KeepsPins m m' := by
  simp only [getPinConfig, Option.bind_eq_bind, Option.bind_eq_some_iff] at h
  obtain ⟨r, hgpios, h⟩ := h
  refine (hasGpios_keepsPins hgpios).trans ?_
  split_ifs at h
  · obtain ⟨m₁, hack, h⟩ := Option.bind_eq_some_iff.mp h
    exact ((writeControl_keepsPins hack).trans (loadConfigs_keepsPins _)).trans
      (writePacket_keepsPins h)
  · obtain rfl := Option.some.inj h
    exact .refl _

theorem recv_keepsPins {m m' : Mcu} {flags : Byte}
    (hflags : flags &&& RX_REPEATER_FLAG = m.rxFlags &&& RX_REPEATER_FLAG)
    (h : ack (rxReset { m with rxFlags := flags }) = some m') : KeepsPins m m' :=
  ((KeepsPins.flags hflags).trans (rxReset_keepsPins _)).trans (writeControl_keepsPins h)

theorem sendBody_keepsPins {m m' : Mcu} (hq : ¬repeating m) (h : sendBody m = some m') :
    KeepsPins m m' := by
  simp only [sendBody, Option.bind_eq_bind, Option.bind_eq_some_iff] at h
  obtain ⟨r, hread, h⟩ := h
  have hkeeps : KeepsPins m r.1 := (rxDisable_keepsPins m).trans (readBufferReal_keepsPins hread)
  have hsent := sendBuffer_keepsPins (fun hr => hq (hkeeps.repeating_iff.mp hr))
  refine (hkeeps.trans hsent).trans ?_
  split_ifs at h
  · exact writeControl_keepsPins h
  · exact (KeepsPins.write _ _ _).trans (writeControl_keepsPins h)

theorem getFeaturesBody_keepsPins {m m' : Mcu} (h : getFeaturesBody m = some m') :
    KeepsPins m m' := by
  unfold getFeaturesBody at h
  dsimp only at h
  refine KeepsPins.trans ?_ (writeControl_keepsPins h)
  exact ((KeepsPins.write m _ _).trans (.write _ _ _)).trans (.write _ _ _)

theorem getBufSizeBody_keepsPins {m m' : Mcu} (h : getBufSizeBody m = some m') : KeepsPins m m' := by
  unfold getBufSizeBody at h
  refine KeepsPins.trans ?_ (writeControl_keepsPins h)
  exact (KeepsPins.write m _ _).trans (.write _ _ _)

theorem resendBody_keepsPins {m m' : Mcu} (hq : ¬repeating m) (h : resendBody m = some m') :
    KeepsPins m m' := by
  simp only [resendBody, Option.bind_eq_bind, Option.bind_eq_some_iff] at h
  obtain ⟨r, hread, h⟩ := h
  have hcode (m : Mcu) : KeepsPins m (rxDisable ((m.setCtl CCODE IG_DEV_RESEND).setCtl CDATA
      (m.ram tmp3))) :=
    ((KeepsPins.write m _ _).trans (.write _ _ _)).trans (rxDisable_keepsPins _)
  have hkeeps := (readControl_keepsPins hread).trans (hcode r.1)
  have hsent := sendBuffer_keepsPins (fun hr => hq (hkeeps.repeating_iff.mp hr))
  exact (hkeeps.trans hsent).trans (writeControl_keepsPins h)

/-- **A handler** of another command keeps the pins. -/
theorem bodyHandler_keepsPins {others : Byte → Mcu → Option Mcu} {code : Byte} {m m' : Mcu}
    (hcode : code ∉ pinWriters) (hq : ¬repeating m) (h : bodyHandler others code m = some m') :
    KeepsPins m m' := by
  simp only [pinWriters, List.mem_cons, List.not_mem_nil, or_false, not_or] at hcode
  obtain ⟨hset, hburst, hconfig, hexecute, hrepeater, hnousb⟩ := hcode
  have hothers : ¬(code = IG_DEV_EXECUTE ∨ code = IG_DEV_REPEATER ∨ code = IG_DEV_NOUSB) := by
    rintro (he | he | he)
    · exact hexecute he
    · exact hrepeater he
    · exact hnousb he
  have hon : (m.rxFlags ||| RX_ON_FLAG) &&& RX_REPEATER_FLAG = m.rxFlags &&& RX_REPEATER_FLAG := by
    rw [BitVec.and_or_distrib_right]
    exact BitVec.or_zero
  have hoff : m.rxFlags &&& ~~~RX_ON_FLAG &&& RX_REPEATER_FLAG = m.rxFlags &&& RX_REPEATER_FLAG := by
    rw [BitVec.and_assoc]
    rfl
  unfold bodyHandler at h
  rw [if_neg hset, if_neg hburst, if_neg hconfig, if_neg hothers] at h
  split_ifs at h
  · exact getFeaturesBody_keepsPins h
  · exact getBufSizeBody_keepsPins h
  · exact recv_keepsPins hon h
  · exact recv_keepsPins hoff h
  · exact sendBody_keepsPins hq h
  · exact resendBody_keepsPins hq h
  · exact getPinConfig_keepsPins h
  · exact getPinsBody_keepsPins h
  · obtain rfl := Option.some.inj h
    exact .refl m

/-! ### A round of the main loop -/

/-- A control packet is read behind the flags of the loader. -/
theorem readControl_pinsStay {m m₁ : Mcu} {code : Byte} (hlen : ∀ p ∈ m.out.head?, p.length ≤ 8)
    (hstay : PinsStay m) (h : readControl m = some (m₁, code)) : PinsStay m₁ := by
  simp only [readControl, Option.bind_eq_bind, Option.bind_eq_some_iff, Option.some.injEq] at h
  obtain ⟨m₂, hread, x, -, heq⟩ := h
  obtain ⟨rfl, -⟩ := Prod.mk.inj heq
  have hclear : (clearControlPkt m).out = m.out := by
    obtain ⟨ram, hwrite⟩ := writeAll_eq (List.replicate PACKET_SIZE.toNat 0) m controlPkt
    rw [clearControlPkt, hwrite]
  cases hout : m.out with
  | nil =>
      rw [readPacket, hclear, hout] at hread
      cases hread
  | cons p out =>
      have hne : p ≠ [] := by
        rintro rfl
        rw [readPacket, hclear, hout] at hread
        cases hread
      obtain ⟨m₃, hread', -, -, hbelow⟩ := readPacket_clear hne
        (hlen p (by rw [hout]; rfl)) hout
      obtain rfl := Option.some.inj (hread.symm.trans hread')
      unfold PinsStay
      rw [hbelow loaderFlags (by decide) (by decide) (by decide)]
      exact hstay

/-- A round finds a command that does not write the pins, or none, and no reset to do. -/
structure QuietRound (m : Mcu) : Prop where
  stay : PinsStay m
  packet : ∀ p ∈ m.out.head?, p.length ≤ 8
  command : ∀ m₁ code, readControl m = some (m₁, code) → code ∉ pinWriters

section

variable {others : Byte → Mcu → Option Mcu} {m m' : Mcu}

theorem mainRecv_keepsPins (hround : QuietRound m) (hq : ¬repeating m)
    (h : mainRecv others m = some m') : KeepsPins m m' := by
  simp only [mainRecv, Option.bind_eq_bind, Option.bind_eq_some_iff] at h
  obtain ⟨⟨m₁, code⟩, hread, h⟩ := h
  have hkeeps := readControl_keepsPins hread
  have hcode := hround.command m₁ code hread
  have hstay := readControl_pinsStay hround.packet hround.stay hread
  refine hkeeps.trans ?_
  split_ifs at h
  · obtain rfl := Option.some.inj h
    exact .refl m₁
  · exact mainGetversion_keepsPins h
  · exact mainProg_keepsPins h
  · exact mainChksum_keepsPins h
  · have hflags : KeepsPins m₁ (bodyFlags (m₁.write tmp1 code)) :=
      (KeepsPins.write m₁ _ _).trans (bodyFlags_keepsPins hstay)
    have htmp : (bodyFlags (m₁.write tmp1 code)).ram tmp1 = code := by
      rw [bodyFlags_ram _ (by decide) (by decide), Mcu.write_same]
    simp only [bodyMain, htmp] at h
    refine hflags.trans (bodyHandler_keepsPins hcode (fun hr => hq ?_) h)
    exact hkeeps.repeating_iff.mp (hflags.repeating_iff.mp hr)

theorem writeSignal_keepsPins (h : m.writeSignal = some m') : KeepsPins m m' := by
  have hget (m : Mcu) : KeepsPins m m.getByte.1 := by
    unfold Mcu.getByte
    dsimp only
    split_ifs <;> exact .of_reg rfl rfl rfl
  have hmvi (m : Mcu) (ptr a : Byte) : KeepsPins m (m.mvi ptr a) :=
    (KeepsPins.write m _ _).trans (.write _ _ _)
  have hloop (n : ℕ) (m : Mcu) : KeepsPins m (Mcu.wsLdLoop n m) := by
    induction n generalizing m with
    | zero => exact .refl m
    | succ n ih => exact ((hget m).trans (hmvi _ tmp1 m.getByte.2)).trans (ih _)
  unfold Mcu.writeSignal at h
  split_ifs at h
  · obtain rfl := Option.some.inj h
    exact .refl m
  · have hload := (KeepsPins.write m tmp1 controlPkt).trans (hloop (PACKET_SIZE - 1).toNat _)
    exact (hload.trans (hmvi _ _ _)).trans (writePacket_keepsPins h)

/-- **A round** that finds no command for the pins keeps them. -/
theorem mainLoop_keepsPins (hround : QuietRound m) (hq : ¬repeating m)
    (h : mainLoop others m = some m') : KeepsPins m m' := by
  unfold mainLoop at h
  split_ifs at h
  · exact mainRecv_keepsPins hround hq h
  · obtain rfl := Option.some.inj h
    exact .refl m
  · rw [bodyLoopBody, Option.bind_eq_bind] at h
    split_ifs at h
    · exact writeSignal_keepsPins h
    · obtain ⟨m₁, hreport, hsignal⟩ := Option.bind_eq_some_iff.mp h
      obtain ⟨m₂, hwrite, rfl⟩ := Option.map_eq_some_iff.mp hreport
      exact (((KeepsPins.write m _ _).trans (writeControl_keepsPins hwrite)).trans
        (rxReset_keepsPins m₂)).trans (writeSignal_keepsPins hsignal)

end

end IguanaIR.Firmware
