import IguanaIR.Firmware.Dark
import IguanaIR.Firmware.Flash
import IguanaIR.Firmware.PinFrame
import IguanaIR.Firmware.Replies
import IguanaIR.Firmware.Resend

/-! # The pins as a register

What `IG_DEV_SETPINS` or the last byte of a burst sets is what `IG_DEV_GETPINS` reports, whatever
signals, flash pages and other commands come in between.  The configuration is not such a register
on a device with a slot: two of its pins are read from where they are not written. -/

namespace IguanaIR.Firmware

open Relation (ReflTransGen)

/-! ### The state of the pins -/

/-- What `get_pins` reads. -/
def pinState (m : Mcu) : Byte × Byte :=
  if slotDevice m then (m.reg .P0DATA &&& ~~~0x20, 0)
  else (m.reg .P0DATA &&& 0x0F, (m.reg .P1DATA).sshiftRight 3 &&& 0x0F)

/-- What `set_pins` takes of two bytes. -/
def pinsTaken (features a b : Byte) : Byte × Byte :=
  if features &&& SLOT_DEV ≠ 0 then (a &&& ~~~0x20, 0) else (a &&& 0x0F, b &&& 0x0F)

/-- The pins of the second port. -/
theorem sshiftRight_nibble :
    ∀ v : Byte, v.sshiftRight 3 &&& (0x0F : Byte) = (v &&& (0x78 : Byte)) >>> 3 := by
  decide +kernel

theorem nibble_shifted : ∀ b : Byte,
    (((b &&& (0x0F : Byte)) <<< 3) &&& (0x78 : Byte)) >>> 3 = b &&& (0x0F : Byte) := by
  decide +kernel

/-- A field of a register is written. -/
theorem write_field {keep mask : Byte} (h : keep &&& mask = 0) (old v : Byte) :
    (old &&& keep ||| v) &&& mask = v &&& mask := by
  ext i hi
  rcases getElem_apart h hi with hbit | hbit <;> simp [hbit]

theorem loadPins_data (m : Mcu) :
    (loadPins m).ctl CDATA = (pinState m).1 ∧ (loadPins m).ctl (CDATA + 1) = (pinState m).2 := by
  unfold loadPins pinState
  dsimp only
  split_ifs
  · exact ⟨rfl, rfl⟩
  · exact ⟨rfl, rfl⟩

theorem pinState_slot {m : Mcu} (h : m.features &&& SLOT_DEV ≠ 0) :
    pinState m = (m.reg .P0DATA &&& ~~~0x20, 0) := if_pos h

theorem pinState_ports {m : Mcu} (h : m.features &&& SLOT_DEV = 0) :
    pinState m = (m.reg .P0DATA &&& 0x0F, (m.reg .P1DATA).sshiftRight 3 &&& 0x0F) :=
  if_neg (not_not.mpr h)

/-- **Set pins are there to read.** -/
theorem storePins_pinState (m : Mcu) :
    pinState (storePins m) = pinsTaken m.features (m.ctl CDATA) (m.ctl (CDATA + 1)) := by
  have hfeatures : (storePins m).features = m.features := (storePins_silent m).features
  by_cases hslot : m.features &&& SLOT_DEV = 0
  · have hports : ¬slotDevice m := not_not.mpr hslot
    have hfirst : (storePins m).reg .P0DATA = m.reg .P0DATA &&& 0xF0 ||| m.ctl CDATA &&& 0x0F := by
      rw [storePins, if_neg hports]
      rfl
    have hsecond : (storePins m).reg .P1DATA =
        m.reg .P1DATA &&& (0x87 : Byte) ||| (m.ctl (CDATA + 1) &&& (0x0F : Byte)) <<< 3 := by
      rw [storePins, if_neg hports]
      rfl
    rw [pinState_ports (by rwa [hfeatures]), pinsTaken, if_neg (not_not.mpr hslot), hfirst, hsecond,
      write_field (by decide), sshiftRight_nibble, write_field (by decide), nibble_shifted,
      BitVec.and_assoc, BitVec.and_self]
  · have hreg : (storePins m).reg .P0DATA = m.reg .P0DATA &&& 0x20 ||| m.ctl CDATA &&& ~~~0x20 := by
      have hone : slotDevice m := hslot
      rw [storePins, if_pos hone]
      rfl
    rw [pinState_slot (by rwa [hfeatures]), pinsTaken, if_pos hslot, hreg, write_field (by decide),
      BitVec.and_assoc, BitVec.and_self]

/-- The state of the pins is in the bits of the free pins. -/
theorem KeepsPins.pinState_eq {m m' : Mcu} (h : KeepsPins m m') (hgpio : gpioFeatures m.features) :
    pinState m' = pinState m := by
  have hfirst := h.bits .P0DATA
  have hsecond := h.bits .P1DATA
  by_cases hslot : m.features &&& SLOT_DEV = 0
  · rw [pinMask_ports hgpio hslot] at hfirst hsecond
    have hbits : m'.reg .P0DATA &&& 0x0F = m.reg .P0DATA &&& 0x0F := hfirst
    have hbits' : m'.reg .P1DATA &&& (0x78 : Byte) = m.reg .P1DATA &&& (0x78 : Byte) := hsecond
    rw [pinState_ports hslot, pinState_ports (by rwa [h.features]), sshiftRight_nibble,
      sshiftRight_nibble, hbits, hbits']
  · rw [pinMask_slot hgpio hslot] at hfirst
    have hbits : m'.reg .P0DATA &&& ~~~0x20 = m.reg .P0DATA &&& ~~~0x20 := hfirst
    rw [pinState_slot hslot, pinState_slot (by rwa [h.features]), hbits]

/-! ### The rounds of the commands -/

theorem hostPacket_length {code : Byte} {arguments : List Byte} (h : arguments.length ≤ 4) :
    (hostPacket code arguments).length ≤ 8 := by
  simp only [hostPacket, List.length_append, List.length_cons, List.length_nil]
  omega

section

variable {others : Byte → Mcu → Option Mcu} {m m' : Mcu}

/-- A round that finds a command for the body enters its handler. -/
theorem mainLoop_enters {code : Byte} {arguments : List Byte} {queue : List (List Byte)}
    (hlen : arguments.length ≤ 4) (hout : m.out = hostPacket code arguments :: queue)
    (hbody : code ∉ [0, IG_DEV_GETVERSION, IG_DEV_WRITEBLOCK, IG_DEV_CHECKSUM, IG_DEV_RESET])
    (h : mainLoop others m = some m') :
    ∃ m₁ m₂, readControl m = some (m₁, code) ∧ m₂ = bodyFlags (m₁.write tmp1 code) ∧
      bodyHandler others code m₂ = some m' ∧ Entered code arguments queue m m₂ ∧
      (repeating m₂ ↔ repeating m) ∧ (PinsStay m → KeepsPins m m₂) := by
  have hrun : ¬halted m := by
    intro hhalted
    rw [mainLoop, if_pos hhalted] at h
    cases h
  have hcheck : checkRead m = true := by
    rw [checkRead, hout]
    rfl
  rw [mainLoop, if_neg hrun, if_pos hcheck] at h
  obtain ⟨m₁, hread, hentered⟩ := readControl_enters hlen hrun hout
  have hkeeps := readControl_keepsPins hread
  have hwrite : KeepsPins m₁ (m₁.write tmp1 code) := .write m₁ tmp1 code
  refine ⟨m₁, _, hread, rfl, (mainRecv_enters others hread hbody).symm.trans h,
    (bodyFlags_enters hentered).2, ?_, fun hstay => ?_⟩
  · exact (bodyFlags_dark _).repeating_iff.trans (hkeeps.trans hwrite).repeating_iff
  · have hhead : ∀ p ∈ m.out.head?, p.length ≤ 8 := by
      intro p hp
      rw [hout] at hp
      obtain rfl := Option.some.inj hp
      exact hostPacket_length hlen
    have hstay₁ : PinsStay m₁ := readControl_pinsStay hhead hstay hread
    exact (hkeeps.trans hwrite).trans (bodyFlags_keepsPins hstay₁)

/-- **`IG_DEV_SETPINS`** sets the pins. -/
theorem mainLoop_setPins {a b : Byte} {queue : List (List Byte)} (hgpio : gpioFeatures m.features)
    (hout : m.out = hostPacket IG_DEV_SETPINS [a, b] :: queue) (h : mainLoop others m = some m') :
    pinState m' = pinsTaken m.features a b ∧ m'.features = m.features ∧
      (repeating m' ↔ repeating m) := by
  have hlen : [a, b].length ≤ 4 := by simp
  obtain ⟨-, m₁, -, -, hhandler, hentered, hrepeating, -⟩ :=
    mainLoop_enters hlen hout (by decide) h
  have hgpio₁ : gpioFeatures m₁.features := by rwa [hentered.features]
  change setPinsBody m₁ = some m' at hhandler
  simp only [setPinsBody, setPins, hasGpios_true hgpio₁, Option.bind_eq_bind, Option.bind_some,
    if_true] at hhandler
  have hack := writeControl_keepsPins hhandler
  have hfeatures : (storePins m₁).features = m₁.features := (storePins_silent m₁).features
  have hflags : (storePins m₁).rxFlags = m₁.rxFlags := by
    unfold storePins
    dsimp only
    split_ifs <;> rfl
  have hargument := hentered.argument 0 (by decide)
  have hargument' := hentered.argument 1 (by decide)
  refine ⟨?_, ?_, ?_⟩
  · rw [hack.pinState_eq (by rwa [hfeatures]), storePins_pinState, hentered.features]
    exact congrArg₂ (pinsTaken m.features) hargument hargument'
  · rw [hack.features, hfeatures, hentered.features]
  · refine (hack.repeating_iff.trans ?_).trans hrepeating
    unfold repeating
    rw [hflags]

/-- **`IG_DEV_GETPINS`** reports the pins. -/
theorem mainLoop_getPins {arguments : List Byte} {queue : List (List Byte)}
    (hgpio : gpioFeatures m.features) (hstay : PinsStay m) (hlen : arguments.length ≤ 4)
    (hout : m.out = hostPacket IG_DEV_GETPINS arguments :: queue)
    (h : mainLoop others m = some m') :
    m'.sent = m.sent ++ [replyHeader IG_DEV_GETPINS ++ [(pinState m).1, (pinState m).2]] := by
  obtain ⟨-, m₁, -, -, hhandler, hentered, -, hkeeps⟩ := mainLoop_enters hlen hout (by decide) h
  have hgpio₁ : gpioFeatures m₁.features := by rwa [hentered.features]
  change getPinsBody m₁ = some m' at hhandler
  simp only [getPinsBody, getPins, hasGpios_true hgpio₁, Option.bind_eq_bind, Option.bind_some,
    if_true] at hhandler
  have hsilent := loadPins_silent m₁
  obtain ⟨ram, hwrite, -⟩ := writeControl_eq (m := loadPins m₁)
    (fun hh => hentered.running (hsilent.halted_iff.mp hh)) (show 2 ≤ 4 by decide)
  have hdata : ctlData (loadPins m₁) 2 = [(pinState m).1, (pinState m).2] := by
    obtain ⟨hfirst, hsecond⟩ := loadPins_data m₁
    rw [← (hkeeps hstay).pinState_eq hgpio, ← hfirst, ← hsecond]
    rfl
  obtain rfl := Option.some.inj (hwrite.symm.trans hhandler)
  rw [hsilent.sent, hsilent.code, hentered.sent, hentered.code, hdata]

end

/-! ### Bursts -/

/-- One byte of a burst: the low nibble is for the first port, the high one for the second. -/
def pinsOfByte (features a : Byte) : Byte × Byte :=
  pinsTaken features (a &&& 0x0F) ((a &&& 0xF0).sshiftRight 4)

/-- The states of the pins in `pin_burst_loop`, for `n` more bytes. -/
def burstStates : ℕ → Mcu → List (Byte × Byte)
  | 0, _ => []
  | n + 1, m =>
      match burstByte m with
      | none => []
      | some m => pinState m :: burstStates n m

/-- A step of the burst leaves the buffer alone and goes to `p`. -/
structure Bursts (p : Byte) (m m' : Mcu) : Prop where
  ram : ∀ x, x < bufferPtr → m'.ram x = m.ram x
  ptr : m'.ram bufferPtr = p
  features : m'.features = m.features
  repeating_iff : repeating m' ↔ repeating m

theorem burstByte_bursts {m : Mcu} (hgpio : gpioFeatures m.features) :
    ∃ m', burstByte m = some m' ∧ Bursts (m.ram bufferPtr + 1) m m' ∧
      pinState m' = pinsOfByte m.features (m.ram (m.ram bufferPtr)) := by
  obtain ⟨a, ha⟩ : ∃ a, a = m.ram (m.ram bufferPtr) := ⟨_, rfl⟩
  obtain ⟨m₀, hm₀⟩ : ∃ m₀, m₀ = (((m.write bufferPtr (m.ram bufferPtr + 1)).write tmp1 a).setCtl
      CDATA (a &&& 0x0F)).setCtl (CDATA + 1) ((a &&& 0xF0).sshiftRight 4) := ⟨_, rfl⟩
  have hfeatures : m₀.features = m.features := by
    rw [hm₀]
    rfl
  have hbyte : burstByte m = some (storePins m₀) := by
    have hgpio₀ : gpioFeatures m₀.features := by rwa [hfeatures]
    unfold burstByte
    dsimp only
    rw [← ha, ← hm₀]
    simp only [setPins, hasGpios_true hgpio₀, Option.bind_eq_bind, Option.bind_some, if_true]
  have hstore : (∀ x, x < controlPkt → (storePins m₀).ram x = m₀.ram x) ∧
      (storePins m₀).rxFlags = m₀.rxFlags := by
    have hbelow {x : Byte} (hx : x < controlPkt) : x ≠ controlPkt + CDATA ∧
        x ≠ controlPkt + (CDATA + 1) :=
      ⟨BitVec.ne_of_lt (BitVec.lt_trans hx (by decide)),
        BitVec.ne_of_lt (BitVec.lt_trans hx (by decide))⟩
    unfold storePins
    dsimp only
    split_ifs
    · exact ⟨fun x hx => Mcu.write_ne _ _ (hbelow hx).1, rfl⟩
    · refine ⟨fun x hx => ?_, rfl⟩
      exact (Mcu.write_ne _ _ (hbelow hx).2).trans (Mcu.write_ne _ _ (hbelow hx).1)
  refine ⟨storePins m₀, hbyte, ⟨fun x hx => ?_, ?_, ?_, ?_⟩, ?_⟩
  · have hother : x ≠ bufferPtr ∧ x ≠ tmp1 ∧ x ≠ controlPkt + CDATA ∧
        x ≠ controlPkt + (CDATA + 1) :=
      ⟨BitVec.ne_of_lt hx, BitVec.ne_of_lt (BitVec.lt_trans hx (by decide)),
        BitVec.ne_of_lt (BitVec.lt_trans hx (by decide)),
        BitVec.ne_of_lt (BitVec.lt_trans hx (by decide))⟩
    rw [hstore.1 x (BitVec.lt_trans hx (by decide)), hm₀]
    exact (Mcu.write_ne _ _ hother.2.2.2).trans ((Mcu.write_ne _ _ hother.2.2.1).trans
      ((Mcu.write_ne _ _ hother.2.1).trans (Mcu.write_ne _ _ hother.1)))
  · rw [hstore.1 bufferPtr (by decide), hm₀]
    rfl
  · rw [(storePins_silent m₀).features, hfeatures]
  · unfold repeating
    rw [hstore.2, hm₀]
    rfl
  · rw [storePins_pinState, hfeatures, hm₀, ← ha]
    rfl

/-- **The burst loop** shows the bytes in the buffer, one after the other. -/
theorem burstLoop_bursts (bytes : List Byte) {m : Mcu} {p : Byte} (hgpio : gpioFeatures m.features)
    (hptr : m.ram bufferPtr = p) (hroom : p.toNat + bytes.length ≤ bufferPtr.toNat)
    (hstored : Stored m p bytes) :
    burstStates bytes.length m = bytes.map (pinsOfByte m.features) ∧
      ∃ m', burstLoop bytes.length m = some m' ∧ m'.features = m.features ∧
        (repeating m' ↔ repeating m) ∧
        ∀ a ∈ bytes.getLast?, pinState m' = pinsOfByte m.features a := by
  induction bytes generalizing m p with
  | nil =>
      refine ⟨rfl, m, rfl, rfl, Iff.rfl, fun a ha => ?_⟩
      cases ha
  | cons a rest ih =>
      have hlast : bufferPtr.toNat = 243 := rfl
      rw [List.length_cons] at hroom
      have hfirst : m.ram p = a := by
        have h := hstored 0 (by simp)
        rwa [BitVec.add_zero] at h
      obtain ⟨m₁, hbyte, hbursts, hpins⟩ := burstByte_bursts hgpio
      rw [hptr, hfirst] at hpins
      have hnext : (p + 1).toNat = p.toNat + 1 := Mcu.toNat_succ (by omega)
      have hstored₁ : Stored m₁ (p + 1) rest := by
        intro i hi
        have hx : p + 1 + BitVec.ofNat 8 i = p + BitVec.ofNat 8 (i + 1) :=
          (add_ofNat_succ _ i).symm
        have hlt : p + BitVec.ofNat 8 (i + 1) < bufferPtr := by
          rw [BitVec.lt_def, BitVec.toNat_add, BitVec.toNat_ofNat]
          omega
        rw [hx, hbursts.ram _ hlt, hstored (i + 1) (by rw [List.length_cons]; omega),
          List.getElem_cons_succ]
      obtain ⟨hstates, m', hloop, hfeatures, hrepeating, hend⟩ := ih
        (by rwa [hbursts.features]) (by rw [hbursts.ptr, hptr]) (by omega) hstored₁
      rw [hbursts.features] at hstates hfeatures hend
      refine ⟨?_, m', ?_, hfeatures, hrepeating.trans hbursts.repeating_iff, fun b hb => ?_⟩
      · rw [List.length_cons, burstStates, hbyte, List.map_cons]
        dsimp only
        rw [hpins, hstates]
      · rw [List.length_cons, burstLoop, hbyte]
        exact hloop
      · cases rest with
        | nil =>
            obtain rfl := Option.some.inj hb
            obtain rfl := Option.some.inj hloop
            exact hpins
        | cons c rest => exact hend b hb

/-- The states of the pins in the round that finds a burst. -/
def burstRound (m : Mcu) : Option (List (Byte × Byte)) := do
  let (m, code) ← readControl m
  let (m, _) ← readBuffer (rxDisable (bodyFlags (m.write tmp1 code)))
  let (m, _) ← hasGpios m
  let m := m.write bufferPtr buffer
  some (burstStates (if m.ctl CDATA = 0 then 256 else (m.ctl CDATA).toNat) m)

/-- **`IG_DEV_PINBURST`** shows the bytes of its packets on the pins, and the last one stays. -/
theorem mainLoop_pinBurst {others : Byte → Mcu → Option Mcu} {m m' : Mcu}
    {data queue : List (List Byte)} (hgpio : gpioFeatures m.features)
    (hpos : 0 < data.flatten.length) (hle : data.flatten.length ≤ 150)
    (hne : ∀ p ∈ data ++ queue, p ≠ [])
    (hout : m.out = hostPacket IG_DEV_PINBURST [BitVec.ofNat 8 data.flatten.length] ::
      (data ++ queue))
    (h : mainLoop others m = some m') :
    burstRound m = some (data.flatten.map (pinsOfByte m.features)) ∧
      m'.features = m.features ∧ (repeating m' ↔ repeating m) ∧
      ∀ a ∈ data.flatten.getLast?, pinState m' = pinsOfByte m.features a := by
  have hlen : [BitVec.ofNat 8 data.flatten.length].length ≤ 4 := by simp
  obtain ⟨m₁, m₂, hread, hm₂, hhandler, hentered, hrepeating, -⟩ :=
    mainLoop_enters hlen hout (by decide) h
  have hnat : (BitVec.ofNat 8 data.flatten.length).toNat = data.flatten.length := by
    rw [BitVec.toNat_ofNat]
    omega
  have hoff := rxDisable_silent m₂
  have hcount : (rxDisable m₂).ctl CDATA = BitVec.ofNat 8 data.flatten.length := by
    rw [Mcu.ctl, rxDisable_ram]
    exact hentered.argument 0 (by decide)
  have hzero : BitVec.ofNat 8 data.flatten.length ≠ 0 := by
    intro h0
    have hz : (0 : Byte).toNat = 0 := rfl
    rw [h0, hz] at hnat
    omega
  obtain ⟨ram, hblock, hstored, -, hrest⟩ := @readBufferReal_block (rxDisable m₂)
    ((rxDisable m₂).ctl CDATA) data queue (fun hh => hentered.running (hoff.halted_iff.mp hh))
    (by rwa [hcount]) (by rwa [hcount, hnat]) hne (by rw [hcount, hnat])
    (by rw [hoff.out, hentered.out])
  obtain ⟨m₃, hm₃⟩ : ∃ m₃, m₃ = ({ rxDisable m₂ with ram := ram, out := queue } : Mcu) := ⟨_, rfl⟩
  have hfeatures : m₃.features = m.features := by
    rw [hm₃, ← hentered.features, ← hoff.features]
  have hgpio₃ : hasGpios m₃ = some (m₃, true) := hasGpios_true (by rwa [hfeatures])
  have hreads : readBuffer (rxDisable m₂) = some (m₃, true) := by
    rw [hm₃]
    exact hblock
  have hcount₃ : (m₃.write bufferPtr buffer).ctl CDATA = BitVec.ofNat 8 data.flatten.length := by
    rw [← hcount, hm₃]
    exact (Mcu.write_ne _ _ (by decide)).trans (hrest _ (by decide))
  have hturns : (if (m₃.write bufferPtr buffer).ctl CDATA = 0 then 256
      else ((m₃.write bufferPtr buffer).ctl CDATA).toNat) = data.flatten.length := by
    rw [hcount₃, if_neg hzero, hnat]
  have hstored₃ : Stored (m₃.write bufferPtr buffer) buffer data.flatten := by
    intro i hi
    have hplace : buffer + BitVec.ofNat 8 i ≠ bufferPtr :=
      bufferByte_ne (by omega) (BitVec.le_refl bufferPtr)
    rw [Mcu.write_ne _ _ hplace, hm₃]
    exact hstored i hi
  have hbuffer : buffer.toNat = 93 := rfl
  have hlast : bufferPtr.toNat = 243 := rfl
  obtain ⟨hstates, m₄, hloop, hfeatures₄, hrepeating₄, hend⟩ := burstLoop_bursts data.flatten
    (m := m₃.write bufferPtr buffer) (by rwa [← hfeatures] at hgpio) (Mcu.write_same _ _ _)
    (by omega) hstored₃
  have hmain : pinBurst m₃ = some m₄ := by
    unfold pinBurst
    rw [hgpio₃]
    simp only [Option.bind_eq_bind, Option.bind_some, if_true]
    rw [hturns]
    exact hloop
  change pinBurstBody m₂ = some m' at hhandler
  rw [pinBurstBody_eq hreads, hmain] at hhandler
  have hack := writeControl_keepsPins hhandler
  refine ⟨?_, ?_, ?_, fun a ha => ?_⟩
  · simp only [burstRound, hread, Option.bind_eq_bind, Option.bind_some]
    rw [← hm₂, hreads]
    simp only [Option.bind_some, hgpio₃]
    rw [hturns, hstates, ← hfeatures]
    rfl
  · rw [hack.features, hfeatures₄, ← hfeatures]
    rfl
  · have hstart : repeating m₃ ↔ repeating m₂ := by
      rw [hm₃]
      exact (rxDisable_dark m₂).repeating_iff
    exact ((hack.repeating_iff.trans hrepeating₄).trans hstart).trans hrepeating
  · rw [hack.pinState_eq (by rw [hfeatures₄]; rwa [← hfeatures] at hgpio), hend a ha, ← hfeatures]
    rfl

/-! ### The configuration -/

/-- The registers that `set_pin_config` writes, by the bytes of the packet. -/
def configStored (features : Byte) : List (Option Reg) :=
  if features &&& SLOT_DEV ≠ 0 then
    [some .P00CR, some .P01CR, some .P02CR, some .P03CR, some .P04CR, none, some .P06CR, some .P07CR]
  else [some .P00CR, some .P01CR, some .P02CR, some .P03CR, some .P13CR, some .P14CR, some .P15CR,
    some .P16CR]

/-- The registers that `get_pin_config` reads. -/
def configLoaded (features : Byte) : List (Option Reg) :=
  if features &&& SLOT_DEV ≠ 0 then
    [some .P00CR, some .P01CR, some .P02CR, some .P03CR, some .P04CR, none, some .P05CR, some .P07CR]
  else configStored features

/-- The bytes for these registers. -/
def configBytes (reg : Reg → Byte) (regs : List (Option Reg)) : List Byte :=
  regs.map (fun r => (r.map (fun r => reg r &&& PIN_CFG_MASK)).getD 0)

/-- The packet as it is read back: nothing for the receiver, and its pull-up in place of the pin
behind it. -/
def configAnswer (features pullup : Byte) (payload : List Byte) : List Byte :=
  (if features &&& SLOT_DEV ≠ 0 then (payload.set 5 0).set 6 pullup else payload).map
    (· &&& PIN_CFG_MASK)

/-- The first `n` bytes of the control packet. -/
def controlBytes (m : Mcu) (n : ℕ) : List Byte := (List.range n).map (fun i => m.ctl (BitVec.ofNat 8 i))

theorem loadConfigs_bytes (m : Mcu) :
    (((loadConfigs m).write tmp1 PACKET_SIZE).write tmp2 controlPkt).readAll controlPkt
      PACKET_SIZE.toNat = configBytes m.reg (configLoaded m.features) := by
  unfold loadConfigs configLoaded configStored
  dsimp only
  split_ifs with hone hslot hslot
  · rfl
  · exact absurd hone hslot
  · exact absurd hslot hone
  · rfl

/-- **A configuration that is stored**, read again. -/
theorem storeConfigs_bytes (m : Mcu) :
    configBytes (storeConfigs m).reg (configLoaded m.features) =
      configAnswer m.features (m.reg .P05CR) (controlBytes m 8) := by
  have hbytes : controlBytes m 8 =
      [m.ctl 0, m.ctl 1, m.ctl 2, m.ctl 3, m.ctl 4, m.ctl 5, m.ctl 6, m.ctl 7] := rfl
  have hstore (m : Mcu) (r : Reg) (i : Byte) : storeConfig r i m =
      m.setReg r (m.ctl i &&& PIN_CFG_MASK) := rfl
  have hmask (v : Byte) : v &&& PIN_CFG_MASK &&& PIN_CFG_MASK = v &&& PIN_CFG_MASK := by
    rw [BitVec.and_assoc, BitVec.and_self]
  rw [hbytes]
  unfold storeConfigs configLoaded configStored configAnswer configBytes
  dsimp only
  split_ifs with hone hslot hslot
  · simp [hstore, Mcu.setReg, Mcu.ctl, hmask]
  · exact absurd hone hslot
  · exact absurd hslot hone
  · simp [hstore, Mcu.setReg, Mcu.ctl, hmask]

/-- The registers of the configuration are those of free pins, and the pull-up. -/
theorem pinMask_loaded : ∀ features : Byte, gpioFeatures features →
    ∀ r ∈ configLoaded features, ∀ reg ∈ r, pinMask features reg = 0xFF ∨ reg = .P05CR := by
  decide +kernel

theorem KeepsPins.configBytes_eq {m m' : Mcu} (h : KeepsPins m m') (hgpio : gpioFeatures m.features)
    (hpullup : m.reg .P05CR = 0x02) :
    configBytes m'.reg (configLoaded m.features) = configBytes m.reg (configLoaded m.features) := by
  have hall (v : Byte) : v &&& 0xFF = v := BitVec.and_allOnes
  apply List.map_congr_left
  intro r hr
  cases r with
  | none => rfl
  | some reg =>
      have hreg : m'.reg reg = m.reg reg := by
        rcases pinMask_loaded m.features hgpio (some reg) hr reg rfl with hmask | rfl
        · have hbits := h.bits reg
          rwa [hmask, hall, hall] at hbits
        · rw [hpullup, h.pullup hpullup]
      rw [Option.map_some, Option.map_some, hreg]

theorem bodyFlags_pullup {m : Mcu} (h : m.reg .P05CR = 0x02) :
    (bodyFlags m).reg .P05CR = 0x02 := by
  have hreset (m : Mcu) (h : m.reg .P05CR = 0x02) : (bodyReset m).reg .P05CR = 0x02 := by
    rw [← h]
    unfold bodyReset pinsReset
    dsimp only
    split_ifs <;> rfl
  have hflag {flag : Byte} {step : Mcu → Mcu}
      (hs : ∀ m : Mcu, m.reg .P05CR = 0x02 → (step m).reg .P05CR = 0x02) (m : Mcu)
      (h : m.reg .P05CR = 0x02) : (onFlag flag step m).reg .P05CR = 0x02 := by
    unfold onFlag
    split_ifs
    · exact h
    · exact hs m h
  exact hflag (fun m => (bodyBufclr_keepsPins m).pullup) _ (hflag hreset _
    (hflag (fun m => (bodyInit_keepsPins m).pullup) m h))

/-- The packet behind the control packet is read as it is. -/
theorem readPacket_stored {m : Mcu} {payload : List Byte} {queue : List (List Byte)}
    (hlen : payload.length = 8) (hout : m.out = payload :: queue) :
    ∃ ram, readPacket m = some { m with ram := ram, out := queue } ∧
      (∀ i, ∀ h : i < payload.length, ram (controlPkt + BitVec.ofNat 8 i) = payload[i]) ∧
      ram loaderFlags = m.ram loaderFlags := by
  have hbase : controlPkt.toNat = 248 := rfl
  have hne : payload ≠ [] := List.ne_nil_of_length_pos (by omega)
  obtain ⟨m₀, hm₀⟩ : ∃ m₀, m₀ = (({ m with out := queue } : Mcu).write tmp1 0).write tmp2
      controlPkt := ⟨_, rfl⟩
  obtain ⟨ram, hall⟩ := writeAll_eq payload m₀ controlPkt
  have hbytes := Mcu.writeAll_ram_add payload m₀ controlPkt (by omega)
  have hflags := Mcu.writeAll_ram_of_lt payload m₀ controlPkt loaderFlags (by omega)
    (.inl (by decide))
  rw [hall] at hbytes hflags
  refine ⟨ram, ?_, hbytes, hflags.trans ?_⟩
  · unfold readPacket
    rw [hout]
    simp only [if_neg hne]
    rw [← hm₀, hall, hm₀]
    rfl
  · rw [hm₀]
    exact (Mcu.write_ne _ _ (by decide)).trans (Mcu.write_ne _ _ (by decide))

section

variable {others : Byte → Mcu → Option Mcu} {m m' : Mcu} {arguments : List Byte}
  {queue : List (List Byte)}

/-- **`IG_DEV_GETPINCONFIG`** sends the configuration behind its ack. -/
theorem mainLoop_getPinConfig (hgpio : gpioFeatures m.features) (hstay : PinsStay m)
    (hpullup : m.reg .P05CR = 0x02) (hlen : arguments.length ≤ 4)
    (hout : m.out = hostPacket IG_DEV_GETPINCONFIG arguments :: queue)
    (h : mainLoop others m = some m') :
    m'.sent = m.sent ++ [replyHeader IG_DEV_GETPINCONFIG,
      configBytes m.reg (configLoaded m.features)] := by
  obtain ⟨-, m₁, -, -, hhandler, hentered, -, hkeeps⟩ := mainLoop_enters hlen hout (by decide) h
  have hgpio₁ : gpioFeatures m₁.features := by rwa [hentered.features]
  obtain ⟨ram, hack, hflags⟩ := writeControl_eq hentered.running (Nat.zero_le 4)
  obtain ⟨m₂, hm₂⟩ : ∃ m₂, m₂ = ({ m₁ with
      ram := ram, sent := m₁.sent ++ [replyHeader (m₁.ctl CCODE) ++ ctlData m₁ 0] } : Mcu) := ⟨_, rfl⟩
  have hack' : writeControl CTL_BASE_SIZE m₁ = some m₂ := by
    rw [hm₂]
    exact hack
  change getPinConfig m₁ = some m' at hhandler
  simp only [getPinConfig, hasGpios_true hgpio₁, hack', Option.bind_eq_bind, Option.bind_some,
    if_true] at hhandler
  have hload : (loadConfigs m₂).ram loaderFlags = m₁.ram loaderFlags ∧
      (loadConfigs m₂).sent = m₂.sent := by
    rw [← hflags, hm₂]
    unfold loadConfigs
    dsimp only
    split_ifs <;> exact ⟨rfl, rfl⟩
  have hrun : ¬halted (loadConfigs m₂) := by
    unfold halted
    rw [hload.1]
    exact hentered.running
  rw [writePacket_eq hrun] at hhandler
  obtain rfl := Option.some.inj hhandler
  have hbytes : configBytes m₂.reg (configLoaded m₂.features) =
      configBytes m.reg (configLoaded m.features) := by
    rw [← (hkeeps hstay).configBytes_eq hgpio hpullup, hm₂, ← hentered.features]
  show (loadConfigs m₂).sent ++ _ = _
  rw [loadConfigs_bytes, hload.2, hbytes, hm₂]
  show (m₁.sent ++ [replyHeader (m₁.ctl CCODE) ++ []]) ++ _ = _
  rw [hentered.sent, hentered.code, List.append_nil, List.append_assoc]
  rfl

/-- **`IG_DEV_SETPINCONFIG`** stores the configuration in the packet behind it. -/
theorem mainLoop_setPinConfig {payload : List Byte} (hgpio : gpioFeatures m.features)
    (hpullup : m.reg .P05CR = 0x02) (hlen : arguments.length ≤ 4) (hpayload : payload.length = 8)
    (hout : m.out = hostPacket IG_DEV_SETPINCONFIG arguments :: payload :: queue)
    (h : mainLoop others m = some m') :
    configBytes m'.reg (configLoaded m.features) = configAnswer m.features 0x02 payload ∧
      m'.reg .P05CR = 0x02 ∧ m'.features = m.features ∧ (repeating m' ↔ repeating m) := by
  obtain ⟨m₁, m₂, hread, hm₂, hhandler, hentered, hrepeating, -⟩ :=
    mainLoop_enters hlen hout (by decide) h
  have hpullup₂ : m₂.reg .P05CR = 0x02 := by
    rw [hm₂]
    exact bodyFlags_pullup ((readControl_keepsPins hread).pullup hpullup)
  obtain ⟨ram, hpacket, hbytes, hflags⟩ := readPacket_stored hpayload hentered.out
  obtain ⟨m₃, hm₃⟩ : ∃ m₃, m₃ = ({ m₂ with ram := ram, out := queue } : Mcu) := ⟨_, rfl⟩
  have hflags₃ : m₃.ram loaderFlags = m₂.ram loaderFlags := by
    rw [hm₃]
    exact hflags
  have hrun : ¬halted m₃ := by
    unfold halted
    rw [hflags₃]
    exact hentered.running
  rw [← hm₃] at hpacket
  have hecho := writePacket_eq hrun PACKET_SIZE controlPkt
  obtain ⟨m₄, hm₄⟩ : ∃ m₄, m₄ = ({ (m₃.write tmp1 PACKET_SIZE).write tmp2 controlPkt with
      sent := m₃.sent ++ [((m₃.write tmp1 PACKET_SIZE).write tmp2 controlPkt).readAll controlPkt
        PACKET_SIZE.toNat] } : Mcu) := ⟨_, rfl⟩
  rw [← hm₄] at hecho
  have hpayload₄ : controlBytes m₄ 8 = payload := by
    apply List.ext_getElem
    · rw [controlBytes, List.length_map, List.length_range, hpayload]
    · intro i hi hi'
      have hplace : ∀ i < 8, controlPkt + BitVec.ofNat 8 i ≠ tmp1 ∧
          controlPkt + BitVec.ofNat 8 i ≠ tmp2 := by decide
      obtain ⟨hone, htwo⟩ := hplace i (by omega)
      rw [← hbytes i hi']
      simp only [controlBytes, List.getElem_map, List.getElem_range, Mcu.ctl]
      rw [hm₄, hm₃]
      exact (Mcu.write_ne _ _ htwo).trans (Mcu.write_ne _ _ hone)
  have hstored : (storeConfigs m₄).features = m₂.features ∧
      (storeConfigs m₄).rxFlags = m₂.rxFlags ∧ (storeConfigs m₄).reg .P05CR = m₂.reg .P05CR := by
    rw [hm₄, hm₃]
    unfold storeConfigs
    dsimp only
    split_ifs <;> exact ⟨rfl, rfl, rfl⟩
  have hgpio₂ : gpioFeatures m₂.features := by rwa [hentered.features]
  change setPinConfig m₂ = some m' at hhandler
  simp only [setPinConfig, hasGpios_true hgpio₂, hpacket, hecho, Option.bind_eq_bind,
    Option.bind_some, if_true] at hhandler
  have hkeeps : KeepsPins (storeConfigs m₄) m' :=
    (KeepsPins.write _ _ _).trans (writeControl_keepsPins hhandler)
  have hpullup₄ : (storeConfigs m₄).reg .P05CR = 0x02 := hstored.2.2.trans hpullup₂
  have hfeatures : (storeConfigs m₄).features = m.features := hstored.1.trans hentered.features
  refine ⟨?_, hkeeps.pullup hpullup₄, hkeeps.features.trans hfeatures, ?_⟩
  · have hafter := hkeeps.configBytes_eq (by rwa [hfeatures]) hpullup₄
    have hstore := storeConfigs_bytes m₄
    have hold : m₄.features = m.features ∧ m₄.reg .P05CR = 0x02 := by
      rw [← hentered.features, ← hpullup₂, hm₄, hm₃]
      exact ⟨rfl, rfl⟩
    rw [hold.1, hold.2, hpayload₄] at hstore
    rw [hfeatures] at hafter
    rw [hafter, hstore]
  · refine (hkeeps.repeating_iff.trans ?_).trans hrepeating
    unfold repeating
    rw [hstored.2.1]

end

/-- **The configuration is read as it was written**, but for two bytes of a device with a slot. -/
theorem configAnswer_eq_iff {features : Byte} {payload : List Byte} (hlen : payload.length = 8) :
    configAnswer features 0x02 payload = payload.map (· &&& PIN_CFG_MASK) ↔
      features &&& SLOT_DEV = 0 ∨
        payload.getD 5 0 &&& PIN_CFG_MASK = 0 ∧ payload.getD 6 0 &&& PIN_CFG_MASK = 0x02 := by
  by_cases hslot : features &&& SLOT_DEV = 0
  · rw [configAnswer, if_neg (not_not.mpr hslot)]
    exact iff_of_true rfl (.inl hslot)
  · have hfive : 5 < payload.length := by omega
    have hsix : 6 < payload.length := by omega
    rw [configAnswer, if_pos hslot, or_iff_right hslot, List.getD_eq_getElem _ _ hfive,
      List.getD_eq_getElem _ _ hsix]
    constructor
    · intro heq
      have hat (i : ℕ) := congrArg (fun bytes => bytes[i]?) heq
      have hat₅ := hat 5
      have hat₆ := hat 6
      simp [hlen] at hat₅ hat₆
      exact ⟨hat₅.symm, hat₆.symm⟩
    · rintro ⟨hfirst, hsecond⟩
      apply List.ext_getElem
      · simp
      · intro i hi hi'
        by_cases h₆ : i = 6
        · subst h₆
          rw [List.getElem_map, List.getElem_map, List.getElem_set_self, hsecond]
          rfl
        · by_cases h₅ : i = 5
          · subst h₅
            simp [hfirst]
          · simp [Ne.symm h₅, Ne.symm h₆]

/-- A device whose pull-ups are on, with these packets to read. -/
def pinDevice (features : Byte) (packets : List (List Byte)) : Mcu :=
  { Mcu.cleared features with reg := fun _ => 0x02, out := packets }

/-! ### Between two commands -/

/-- What happens on the device that has nothing to do with the pins. -/
inductive OtherStep (others : Byte → Mcu → Option Mcu) : Mcu → Mcu → Prop where
  | host (m : Mcu) (packets : List (List Byte)) : OtherStep others m (m.hostWrites packets)
  | round {m m' : Mcu} (hround : QuietRound m) (h : mainLoop others m = some m') :
      OtherStep others m m'
  | tcap {m : Mcu} (h : m.rxEnabled = true) (rising : Bool) (timer : BitVec 16) :
      OtherStep others m (tcapInt rising timer m)
  | twrap {m : Mcu} (h : m.rxEnabled = true) : OtherStep others m (twrapInt m)

/-- The round of another command. -/
theorem QuietRound.of_command {m : Mcu} {code : Byte} {arguments : List Byte}
    {queue : List (List Byte)} (hstay : PinsStay m) (hlen : arguments.length ≤ 4)
    (hout : m.out = hostPacket code arguments :: queue) (hcode : code ∉ pinWriters) :
    QuietRound m := by
  refine ⟨hstay, fun p hp => ?_, fun m₁ code' hread => ?_⟩
  · rw [hout] at hp
    obtain rfl := Option.some.inj hp
    exact hostPacket_length hlen
  · obtain ⟨m₂, hread', -⟩ := readControl_some hlen hout
    obtain ⟨-, rfl⟩ := Prod.mk.inj (Option.some.inj (hread'.symm.trans hread))
    exact hcode

section

variable {others : Byte → Mcu → Option Mcu} {m m' m₁ m₂ m₃ : Mcu}

theorem OtherStep.keepsPins (h : OtherStep others m m') (hq : ¬repeating m) : KeepsPins m m' := by
  cases h with
  | host packets => exact .of_reg rfl rfl rfl
  | round hround h => exact mainLoop_keepsPins hround hq h
  | tcap h rising timer => exact tcapInt_keepsPins rising timer hq
  | twrap h => exact twrapInt_keepsPins m

/-- **A whole run** of other steps keeps the pins. -/
theorem keepsPins_of_run (h : ReflTransGen (OtherStep others) m m') (hq : ¬repeating m) :
    KeepsPins m m' := by
  induction h with
  | refl => exact .refl m
  | tail _ hstep ih =>
      exact ih.trans (hstep.keepsPins (fun hr => hq (ih.repeating_iff.mp hr)))

variable {arguments : List Byte} {queue queue' : List (List Byte)}

/-- **What was set is what is reported**, whatever other steps there are in between. -/
theorem getPins_setPins {a b : Byte} (hgpio : gpioFeatures m.features) (hq : ¬repeating m)
    (hset : m.out = hostPacket IG_DEV_SETPINS [a, b] :: queue) (h₁ : mainLoop others m = some m₁)
    (hrun : ReflTransGen (OtherStep others) m₁ m₂) (hstay : PinsStay m₂)
    (hlen : arguments.length ≤ 4) (hget : m₂.out = hostPacket IG_DEV_GETPINS arguments :: queue')
    (h₃ : mainLoop others m₂ = some m₃) :
    m₃.sent = m₂.sent ++ [replyHeader IG_DEV_GETPINS ++
      [(pinsTaken m.features a b).1, (pinsTaken m.features a b).2]] := by
  obtain ⟨hpins, hfeatures, hrepeating⟩ := mainLoop_setPins hgpio hset h₁
  have hgpio₁ : gpioFeatures m₁.features := by rwa [hfeatures]
  have hkeeps := keepsPins_of_run hrun (fun hr => hq (hrepeating.mp hr))
  rw [mainLoop_getPins (by rwa [hkeeps.features]) hstay hlen hget h₃, hkeeps.pinState_eq hgpio₁,
    hpins]

/-- A device without a slot; in between the host asks for the size of the buffer. -/
theorem getPins_setPins_ports : ∃ m₁ m₂ m₃,
    mainLoop (fun _ m => some m) (pinDevice 0 [hostPacket IG_DEV_SETPINS [0xA5, 0x3C]]) = some m₁ ∧
    mainLoop (fun _ m => some m) (m₁.hostWrites [hostPacket IG_DEV_GETBUFSIZE []]) = some m₂ ∧
    mainLoop (fun _ m => some m) (m₂.hostWrites [hostPacket IG_DEV_GETPINS []]) = some m₃ ∧
    m₃.sent = m₂.sent ++ [replyHeader IG_DEV_GETPINS ++ [0x05, 0x0C]] := by
  obtain ⟨m₁, h₁, hout₁, hstay₁, m₂, h₂, hout₂, hstay₂, m₃, h₃⟩ : ∃ m₁,
      mainLoop (fun _ m => some m) (pinDevice 0 [hostPacket IG_DEV_SETPINS [0xA5, 0x3C]]) =
        some m₁ ∧ m₁.out = [] ∧ PinsStay m₁ ∧ ∃ m₂,
      mainLoop (fun _ m => some m) (m₁.hostWrites [hostPacket IG_DEV_GETBUFSIZE []]) =
        some m₂ ∧ m₂.out = [] ∧ PinsStay m₂ ∧ ∃ m₃,
      mainLoop (fun _ m => some m) (m₂.hostWrites [hostPacket IG_DEV_GETPINS []]) = some m₃ :=
    ⟨_, rfl, rfl, rfl, _, rfl, rfl, rfl, _, rfl⟩
  have hnone : ([] : List Byte).length ≤ 4 := Nat.zero_le 4
  have hround : QuietRound (m₁.hostWrites [hostPacket IG_DEV_GETBUFSIZE []]) :=
    .of_command hstay₁ hnone (congrArg (· ++ _) hout₁) (by decide)
  have hrun : ReflTransGen (OtherStep (fun _ m => some m)) m₁
      (m₂.hostWrites [hostPacket IG_DEV_GETPINS []]) :=
    ((ReflTransGen.refl.tail (.host m₁ _)).tail (.round hround h₂)).tail (.host m₂ _)
  exact ⟨m₁, m₂, m₃, h₁, h₂, h₃, getPins_setPins (by decide) (by decide) rfl h₁ hrun hstay₂
    hnone (congrArg (· ++ _) hout₂) h₃⟩

/-- **The configuration that was set is reported** unless the device has a slot: there the byte of
the receiver is nothing, and the byte behind it its pull-up. -/
theorem getPinConfig_setPinConfig_iff {payload : List Byte} {arguments' : List Byte}
    (hgpio : gpioFeatures m.features) (hq : ¬repeating m) (hpullup : m.reg .P05CR = 0x02)
    (hlen : arguments.length ≤ 4) (hpayload : payload.length = 8)
    (hset : m.out = hostPacket IG_DEV_SETPINCONFIG arguments :: payload :: queue)
    (h₁ : mainLoop others m = some m₁) (hrun : ReflTransGen (OtherStep others) m₁ m₂)
    (hstay : PinsStay m₂) (hlen' : arguments'.length ≤ 4)
    (hget : m₂.out = hostPacket IG_DEV_GETPINCONFIG arguments' :: queue')
    (h₃ : mainLoop others m₂ = some m₃) :
    m₃.sent = m₂.sent ++ [replyHeader IG_DEV_GETPINCONFIG, payload.map (· &&& PIN_CFG_MASK)] ↔
      m.features &&& SLOT_DEV = 0 ∨
        payload.getD 5 0 &&& PIN_CFG_MASK = 0 ∧ payload.getD 6 0 &&& PIN_CFG_MASK = 0x02 := by
  obtain ⟨hbytes, hpullup₁, hfeatures, hrepeating⟩ :=
    mainLoop_setPinConfig hgpio hpullup hlen hpayload hset h₁
  have hgpio₁ : gpioFeatures m₁.features := by rwa [hfeatures]
  have hkeeps := keepsPins_of_run hrun (fun hr => hq (hrepeating.mp hr))
  have hbytes₂ := hkeeps.configBytes_eq hgpio₁ hpullup₁
  rw [hfeatures, hbytes] at hbytes₂
  have hsent := mainLoop_getPinConfig (by rwa [hkeeps.features]) hstay (hkeeps.pullup hpullup₁)
    hlen' hget h₃
  rw [hkeeps.features, hfeatures, hbytes₂] at hsent
  rw [← configAnswer_eq_iff hpayload, hsent, List.append_right_inj, List.cons_inj_right]
  exact ⟨fun heq => (List.cons.inj heq).1, fun heq => by rw [heq]⟩

/-- Two bytes of a device with a slot that are not read as they were written. -/
theorem getPinConfig_setPinConfig_slot : ∃ m₁ m₂,
    mainLoop (fun _ m => some m) (pinDevice SLOT_DEV [hostPacket IG_DEV_SETPINCONFIG [],
      List.replicate 8 1]) = some m₁ ∧
    mainLoop (fun _ m => some m) (m₁.hostWrites [hostPacket IG_DEV_GETPINCONFIG []]) = some m₂ ∧
    ¬m₂.sent = m₁.sent ++ [replyHeader IG_DEV_GETPINCONFIG, List.replicate 8 1] := by
  obtain ⟨m₁, h₁, hout₁, hstay₁, m₂, h₂⟩ : ∃ m₁,
      mainLoop (fun _ m => some m) (pinDevice SLOT_DEV [hostPacket IG_DEV_SETPINCONFIG [],
        List.replicate 8 1]) = some m₁ ∧ m₁.out = [] ∧ PinsStay m₁ ∧ ∃ m₂,
      mainLoop (fun _ m => some m) (m₁.hostWrites [hostPacket IG_DEV_GETPINCONFIG []]) = some m₂ :=
    ⟨_, rfl, rfl, rfl, _, rfl⟩
  have hnone : ([] : List Byte).length ≤ 4 := Nat.zero_le 4
  have hrun : ReflTransGen (OtherStep (fun _ m => some m)) m₁
      (m₁.hostWrites [hostPacket IG_DEV_GETPINCONFIG []]) := ReflTransGen.single (.host m₁ _)
  have hiff := @getPinConfig_setPinConfig_iff _ _ _ _ _ [] [] [] (List.replicate 8 1) []
    (show gpioFeatures (pinDevice SLOT_DEV [hostPacket IG_DEV_SETPINCONFIG [],
      List.replicate 8 1]).features by decide) (by decide) rfl hnone rfl rfl h₁ hrun hstay₁ hnone
    (congrArg (· ++ _) hout₁) h₂
  refine ⟨m₁, m₂, h₁, h₂, fun hsent => ?_⟩
  exact absurd (hiff.mp hsent) (by decide)

end

end IguanaIR.Firmware
