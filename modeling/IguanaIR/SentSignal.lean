import IguanaIR.BlockExchange
import IguanaIR.CarrierExact
import IguanaIR.Compression
import IguanaIR.Firmware.Dark
import IguanaIR.Firmware.Resend
import IguanaIR.Firmware.TransmitCalls
import IguanaIR.SendSize
import IguanaIR.ReplyPerRequest

/-! # From the client's words to the signal

A signal that a client sends, on its whole way: the daemon encodes the words and writes the packets
(`sendRequest`, `deviceTransaction`), the firmware puts them together and calls `transmit_code`, and
the LEDs are on and off for the numbers of carrier periods that the words stand for.

The signal of a word list is `alternating`, the periods of the entries by turns.  A pulse of no
period at all would join two spaces, which the transmit loop takes for a pulse that was left out. -/

namespace IguanaIR

open Compress Firmware

variable {fl : ℚ → ℚ} {others : Byte → Mcu → Option Mcu}

/-! ### The signal of a word list -/

/-- The entries by turns, from a pulse on or from a space on. -/
def alternating (pulse : Bool) : List ℕ → List (Bool × ℕ)
  | [] => []
  | total :: rest => (pulse, total) :: alternating (!pulse) rest

/-- No pulse is empty. -/
def PulsesLast (pulse : Bool) : List ℕ → Prop
  | [] => True
  | total :: rest => (pulse = true → total ≠ 0) ∧ PulsesLast (!pulse) rest

instance decidablePulsesLast (pulse : Bool) : DecidablePred (PulsesLast pulse)
  | [] => isTrue trivial
  | total :: rest =>
      have := decidablePulsesLast (!pulse) rest
      inferInstanceAs (Decidable ((pulse = true → total ≠ 0) ∧ PulsesLast (!pulse) rest))

/-- **Uncompressed bytes send the entries**, whatever was sent before them. -/
theorem signal_ver0 {inSpace : Bool} {totals : List ℕ} (h : PulsesLast (!inSpace) totals)
    (lastCycles : ℕ) {t : Tx} (ht : inSpace = true → t.on = true) :
    signal t (pulsesLoop COMPRESS_VER0 inSpace lastCycles totals) =
      Runs.merge (alternating (!inSpace) totals) := by
  induction totals generalizing inSpace t with
  | nil => rfl
  | cons total rest ih =>
      obtain ⟨htotal, hrest⟩ := h
      have hafter : (!inSpace) = true → (afterEntry inSpace total t).on = true := by
        intro hspace
        rw [afterEntry, if_neg (htotal hspace)]
        exact hspace
      have hnone : insertion inSpace total t = [] := by
        apply if_neg
        rintro ⟨hspace, -, hready⟩
        rw [Tx.ready, ht hspace] at hready
        simp at hready
      rw [pulsesLoop_ver0_cons, signal_entry, hnone, List.foldr_nil, ih hrest hafter, alternating,
        Runs.merge_cons]

/-! ### The call of `transmit_code` -/

/-- The state in which `IG_DEV_SEND` calls `transmit_code`: the code is in the buffer, and the
settings are behind its length. -/
structure Called (m mt : Mcu) (code settings : List Byte) (queue : List (List Byte)) : Prop where
  stored : Stored mt buffer code
  length : mt.ctl CDATA = BitVec.ofNat 8 code.length
  settings : ∀ i < 3, mt.ctl (CDATA + BitVec.ofNat 8 (i + 1)) = settings.getD i 0
  ccode : mt.ctl CCODE = IG_DEV_SEND
  dark : Dark m mt
  sent : mt.sent = m.sent
  out : mt.out = queue
  running : ¬halted mt

theorem sendCall_called {m : Mcu} {code settings : List Byte} {data queue : List (List Byte)}
    (hrun : ¬halted m) (hpos : 0 < code.length) (hle : code.length ≤ 150)
    (hsettings : settings.length ≤ 3) (hdata : ∀ p ∈ data ++ queue, p ≠ [])
    (hcode : data.flatten = code)
    (hout : m.out = hostPacket IG_DEV_SEND (BitVec.ofNat 8 code.length :: settings) ::
      (data ++ queue)) :
    ∃ mt, transmitCall m = some (mt, true) ∧ Called m mt code settings queue := by
  obtain ⟨m₁, hread, ⟨ram₁, hm₁⟩, hccode, hargs, hbelow⟩ := readControl_some
    (by rw [List.length_cons]; omega) hout
  obtain ⟨m₂, hm₂⟩ : ∃ m₂, m₂ = rxDisable (bodyFlags (m₁.write tmp1 IG_DEV_SEND)) := ⟨_, rfl⟩
  have hsilent : Silent (m₁.write tmp1 IG_DEV_SEND) m₂ := by
    rw [hm₂]
    exact (bodyFlags_silent _).trans (rxDisable_silent _)
  have hdark : Dark m m₂ := by
    have hfirst : Dark m m₁ := by
      rw [hm₁]
      exact ⟨rfl, rfl, Iff.rfl⟩
    rw [hm₂]
    exact ((hfirst.trans (.write ..)).trans (bodyFlags_dark _)).trans (rxDisable_dark _)
  have hflags : (m₁.write tmp1 IG_DEV_SEND).ram loaderFlags = m.ram loaderFlags := by
    rw [Mcu.write_ne _ _ (by decide)]
    exact hbelow loaderFlags (by decide) (by decide) (by decide)
  have hrun₂ : ¬halted m₂ := by
    rw [hsilent.halted_iff]
    unfold halted
    rw [hflags]
    exact hrun
  have hctl {k : Byte} (hk : controlPkt + k ≠ tmp1 ∧ controlPkt + k ≠ bufferPtr ∧
      controlPkt + k ≠ loaderFlags) : m₂.ctl k = m₁.ctl k := by
    rw [hm₂, Mcu.ctl, rxDisable_ram, bodyFlags_ram _ hk.2.1 hk.2.2, Mcu.write_ne _ _ hk.1]
    rfl
  have hlength : m₂.ctl CDATA = BitVec.ofNat 8 code.length := by
    have h := hargs 0 (by omega)
    rw [BitVec.add_zero] at h
    rw [hctl (by decide)]
    exact h
  have hnat : (BitVec.ofNat 8 code.length).toNat = code.length := by
    rw [BitVec.toNat_ofNat]
    omega
  have hne : m₂.ctl CDATA ≠ 0 := by
    intro h
    have h0 : (0 : Byte).toNat = 0 := rfl
    rw [hlength] at h
    rw [h] at hnat
    omega
  have hout₂ : m₂.out = data ++ queue := by
    rw [hsilent.out, hm₁]
    rfl
  obtain ⟨ram, hblock, hstored, hloader, hrest⟩ := @readBufferReal_block m₂ (m₂.ctl CDATA) data queue
    hrun₂ hne (by rw [hlength, hnat]; exact hle) hdata (by rw [hcode, hlength, hnat]) hout₂
  refine ⟨{ m₂ with ram := ram, out := queue }, ?_, ?_, ?_, fun i hi => ?_, ?_, ?_, ?_, rfl, ?_⟩
  · simp only [transmitCall, hread, Option.bind_eq_bind, Option.bind_some, if_true]
    rw [← hm₂]
    exact hblock
  · rw [hcode] at hstored
    exact hstored
  · exact (hrest _ (by decide)).trans hlength
  · have hplace : ∀ i < 3, tmp3 ≤ controlPkt + (CDATA + BitVec.ofNat 8 (i + 1)) ∧
        controlPkt + (CDATA + BitVec.ofNat 8 (i + 1)) ≠ tmp1 ∧
        controlPkt + (CDATA + BitVec.ofNat 8 (i + 1)) ≠ bufferPtr ∧
        controlPkt + (CDATA + BitVec.ofNat 8 (i + 1)) ≠ loaderFlags := by decide
    obtain ⟨hbehind, hother⟩ := hplace i hi
    exact (hrest _ hbehind).trans ((hctl hother).trans (hargs (i + 1) (by omega)))
  · exact (hrest _ (by decide)).trans ((hctl (by decide)).trans hccode)
  · exact hdark.trans ⟨rfl, rfl, Iff.rfl⟩
  · show m₂.sent = m.sent
    rw [hsilent.sent, hm₁]
    rfl
  · intro hh
    apply hrun₂
    rw [← halted_bufclr]
    unfold halted at hh ⊢
    rw [Mcu.write_same, ← hloader]
    exact hh

/-! ### The settings of a transmission -/

/-- The pins of these channels, all of them for none.  Old devices have one channel. -/
def channelPins (features channels : Byte) : Byte :=
  if features &&& (HAS_LEDS ||| HAS_BOTH ||| HAS_SOCKETS ||| SLOT_DEV) = 0 then OLD_TX_MASK
  else if channels &&& TX_MASK = 0 then TX_MASK
  else channels &&& TX_MASK

theorem readSendSettings_pins (m : Mcu) :
    (readSendSettings m).txPins = channelPins m.features (m.ctl (CDATA + 1)) := by
  unfold readSendSettings channelPins
  by_cases h : supportsChannels m
  · rw [if_pos h, (txDefaultCarrier_fields _).1]
    exact (if_neg h).symm
  · rw [if_neg h]
    exact (if_pos (not_not.mp h)).symm

/-- Delays that are not both 0 stay. -/
theorem readSendSettings_delays {m : Mcu} (h : ¬(m.ctl (CDATA + 2) = 0 ∧ m.ctl (CDATA + 3) = 0)) :
    (readSendSettings m).ctl (CDATA + 2) = m.ctl (CDATA + 2) ∧
      (readSendSettings m).ctl (CDATA + 3) = m.ctl (CDATA + 3) := by
  have hpins (v : Byte) : (m.setCtl (CDATA + 1) v).ctl (CDATA + 2) = m.ctl (CDATA + 2) ∧
      (m.setCtl (CDATA + 1) v).ctl (CDATA + 3) = m.ctl (CDATA + 3) :=
    ⟨Mcu.write_ne _ _ (by decide), Mcu.write_ne _ _ (by decide)⟩
  obtain ⟨h₂, h₃⟩ := hpins (m.ctl (CDATA + 1) &&& TX_MASK)
  unfold readSendSettings
  by_cases hchannels : supportsChannels m
  · rw [if_pos hchannels, txDefaultCarrier, if_neg]
    · exact ⟨h₂, h₃⟩
    · rintro ⟨hzero₂, hzero₃⟩
      exact h ⟨h₂.symm.trans hzero₂, h₃.symm.trans hzero₃⟩
  · rw [if_neg hchannels]
    exact ⟨rfl, rfl⟩

section Calls

variable {k : Byte}

theorem byteCalls_spares (hk : k ∉ txVariables) (m : Mcu) : ∀ c ∈ byteCalls m, Spares k m c.2 := by
  have hstart : Spares k m ((m.write bufferPtr (m.ram bufferPtr + 1)).write tmp4
      (m.ram (m.ram bufferPtr))) :=
    (Spares.writeTx _ hk (by decide)).trans (.writeTx _ hk (by decide))
  intro c hc
  simp only [byteCalls] at hc
  split_ifs at hc
  · simp only [List.mem_cons, List.not_mem_nil, or_false] at hc
    rcases hc with rfl | rfl
    · exact hstart
    · exact hstart.trans (sendLoop_spares _ _ hk)
  · obtain rfl := List.mem_singleton.mp hc
    exact hstart

theorem loopCalls_spares (hk : k ∉ txVariables) (n : ℕ) (m : Mcu) :
    ∀ c ∈ loopCalls n m, Spares k m c.2 := by
  induction n generalizing m with
  | zero => simp [loopCalls]
  | succ n ih =>
      intro c hc
      rcases List.mem_append.mp hc with hc | hc
      · exact byteCalls_spares hk m c hc
      · exact ((txByte_spares m hk).trans (.writeTx _ hk (by decide))).trans (ih _ c hc)

/-- The settings are the same at each call. -/
theorem transmitCalls_ram (hk : k ∉ txVariables) (m : Mcu) {c : Byte × Mcu}
    (hc : c ∈ transmitCalls m) : c.2.ram k = (readSendSettings m).ram k := by
  have hvariable {a : Byte} (ha : a ∈ txVariables) : k ≠ a := by
    rintro rfl
    exact hk ha
  have hstart : (txStart m).ram k = (readSendSettings m).ram k := by
    unfold txStart
    dsimp only
    rw [Mcu.write_ne _ _ (hvariable (by decide)), Mcu.setTxState_ram,
      Mcu.write_ne _ _ (hvariable (by decide))]
  rw [← hstart]
  unfold transmitCalls at hc
  dsimp only at hc
  split_ifs at hc
  · exact ((Spares.writeTx _ hk (by decide)).trans (loopCalls_spares hk _ _ c hc)).ram k (.inr rfl)
  · exact (loopCalls_spares hk _ _ c hc).ram k (.inr rfl)

end Calls

/-! ### What the LEDs play -/

/-- A transmission: the pins that are driven, the clock cycles of half a carrier period, and for
how many periods the LEDs are on and off. -/
structure Plays (m : Mcu) (pins : Byte) (half : ℕ) (periods : List (Bool × ℕ)) : Prop where
  pins : ∀ c ∈ transmitCalls m, c.2.txPins = pins
  half : ∀ c ∈ transmitCalls m, halfPeriod (c.2.ctl (CDATA + 2)) (c.2.ctl (CDATA + 3)) = some half
  periods : Runs.merge ((transmitCalls m).map (fun c => onOff (callEntry c))) = periods

namespace Called

variable {m mt : Mcu} {code settings : List Byte} {queue : List (List Byte)}

theorem loaded (h : Called m mt code settings queue) (hpos : 0 < code.length)
    (hle : code.length ≤ 150) : Loaded code mt := by
  refine ⟨?_, hpos, hle, h.stored⟩
  rw [h.length, BitVec.toNat_ofNat]
  omega

theorem quiet (h : Called m mt code settings queue) (hq : ¬repeating m) : ¬repeating mt :=
  fun hr => hq (h.dark.repeating_iff.mp hr)

/-- The calls send what the bytes stand for. -/
theorem periods_eq (h : Called m mt code settings queue) (hq : ¬repeating m)
    (hpos : 0 < code.length) (hle : code.length ≤ 150) :
    (transmitCalls mt).map (fun c => onOff (callEntry c)) = (txInit mt).emit code := by
  have hemit := transmitCode_ir (h.loaded hpos hle) (h.quiet hq)
  rw [transmitCode_calls (h.quiet hq), List.map_append, List.map_map] at hemit
  exact List.append_cancel_left hemit

/-- **A transmission plays** a signal exactly if the delays make the time of the half period, and
the bytes stand for the signal. -/
theorem plays_iff {channels sevens fours : Byte} (h : Called m mt code [channels, sevens, fours] queue)
    (hq : ¬repeating m) (hpos : 0 < code.length) (hle : code.length ≤ 150)
    (hdelays : ¬(sevens = 0 ∧ fours = 0)) {half : ℕ} {periods : List (Bool × ℕ)} :
    Plays mt (channelPins m.features channels) half periods ↔
      halfPeriod sevens fours = some half ∧ signal (txInit mt) code = periods := by
  have hchannels : mt.ctl (CDATA + 1) = channels := h.settings 0 (by decide)
  have hsevens : mt.ctl (CDATA + 2) = sevens := h.settings 1 (by decide)
  have hfours : mt.ctl (CDATA + 3) = fours := h.settings 2 (by decide)
  have hsettings := @readSendSettings_delays mt (by rwa [hsevens, hfours])
  rw [hsevens, hfours] at hsettings
  have hctl {c : Byte × Mcu} (hc : c ∈ transmitCalls mt) :
      c.2.ctl (CDATA + 2) = sevens ∧ c.2.ctl (CDATA + 3) = fours :=
    ⟨(transmitCalls_ram (by decide) mt hc).trans hsettings.1,
      (transmitCalls_ram (by decide) mt hc).trans hsettings.2⟩
  have hsignal : Runs.merge ((transmitCalls mt).map (fun c => onOff (callEntry c))) =
      signal (txInit mt) code := by
    rw [h.periods_eq hq hpos hle, signal]
  constructor
  · intro hplays
    refine ⟨?_, hsignal.symm.trans hplays.periods⟩
    -- there is a byte, so there is a call
    have hcalls : (transmitCalls mt).map (fun c => onOff (callEntry c)) ≠ [] := by
      obtain ⟨a, rest, rfl⟩ := List.exists_cons_of_length_pos hpos
      rw [h.periods_eq hq hpos hle, Tx.emit]
      exact List.append_ne_nil_of_right_ne_nil _ (List.cons_ne_nil _ _)
    obtain ⟨c, hc⟩ := List.exists_mem_of_ne_nil _ (fun hnil => hcalls (List.map_eq_nil_iff.mpr hnil))
    have hhalf := hplays.half c hc
    rwa [(hctl hc).1, (hctl hc).2] at hhalf
  · rintro ⟨hhalf, hperiods⟩
    refine ⟨fun c hc => ?_, fun c hc => ?_, hsignal.trans hperiods⟩
    · rw [(transmitCalls_selected (h.quiet hq) c hc).pins, readSendSettings_pins, hchannels,
        h.dark.features]
    · rw [(hctl hc).1, (hctl hc).2]
      exact hhalf

/-- Behind the transmission there is the ack, and what was transmitted is all that was. -/
theorem mainLoop_eq (h : Called m mt code settings queue) (hcall : transmitCall m = some (mt, true))
    (hq : ¬repeating m) (hrun : ¬halted m) (hout : m.out ≠ []) :
    ∃ ms, mainLoop others m = some ms ∧ ms.ir = m.ir ++ (transmitCalls mt).map callEntry ∧
      ms.sent = m.sent ++ [replyHeader IG_DEV_SEND] ∧ ms.out = queue ∧ ¬halted ms := by
  have hsilent := sendBuffer_silent mt
  have hrun' : ¬halted (sendBuffer mt) := fun hh => h.running (hsilent.halted_iff.mp hh)
  obtain ⟨ram, hack, hflags⟩ := writeControl_eq hrun' (Nat.zero_le 4)
  have hread : checkRead m = true := by
    rw [checkRead, Bool.not_eq_true', List.isEmpty_eq_false_iff]
    exact hout
  refine ⟨{ sendBuffer mt with
    ram := ram, sent := (sendBuffer mt).sent ++ [replyHeader ((sendBuffer mt).ctl CCODE)] }, ?_, ?_, ?_,
    hsilent.out.trans h.out, ?_⟩
  · rw [mainLoop, if_neg hrun, if_pos hread, mainRecv_transmits others hcall]
    have hnil : replyHeader ((sendBuffer mt).ctl CCODE) ++ ctlData (sendBuffer mt) 0 =
        replyHeader ((sendBuffer mt).ctl CCODE) := List.append_nil _
    rw [hnil] at hack
    exact hack
  · have hir : (sendBuffer mt).ir = (transmitCode mt).ir := (rxReset_dark (transmitCode mt)).ir
    show (sendBuffer mt).ir = _
    rw [hir, transmitCode_calls (h.quiet hq), h.dark.ir]
  · rw [hsilent.sent, hsilent.code, h.sent, h.ccode]
  · show ¬ram loaderFlags &&& FLAG_HALTED ≠ 0
    rw [hflags]
    exact hrun'

end Called

/-! ### What the daemon sends -/

/-- The cycles of the loop that the delays are computed for. -/
def countedCycles (d : Device) (known : Bool) : Byte := if known then d.idev.cycles else LOOP_CYCLES

theorem prepare_signal {checks : Device → Option (Device × Bool)}
    (hchecks : ∀ d d' b, checks d = some (d', b) → d.Keeps d') {d d₁ : Device} {request : DataPacket}
    {p : Prepared} (hver : d.idev.version = BODY_9) (hcode : request.code = IG_DEV_SEND)
    (h : prepare fl checks d request = some (d₁, p)) :
    ∃ known, checks d = some (d₁, known) ∧ p.sent = 0 ∧ p.request = request ∧
      p.msg = controlPacket IG_DEV_SEND [BitVec.ofInt 8 request.dataLen, d.idev.channels,
        (computeCarrierDelays fl d.idev.carrier (countedCycles d₁ known)).1,
        (computeCarrierDelays fl d.idev.carrier (countedCycles d₁ known)).2] := by
  have hother : request.code ≠ IG_DEV_GETID ∧ request.code ≠ IG_DEV_SETID ∧
      request.code ≠ IG_DEV_WRITEBLOCK ∧ request.code ≠ IG_DEV_RESEND := by
    rw [hcode]
    decide
  obtain ⟨hget, hset, hblock, hresend⟩ := hother
  have hdevice : deviceCode request.code d.idev.version = request.code := by
    rw [hver, deviceCode_current hget hset]
  have hstream : hasDataStream request.code := .inl hcode
  have hchannels : hasChannels request.code := .inl hcode
  have hlow : 0x0004 ≤ BODY_9 &&& 0x00FF := by decide
  have hboth : hasBody BODY_9 := by decide
  have hnew : 3 ≤ BODY_9 := by decide
  simp only [prepare, replaceLabel, if_neg hset, forgetFeatures, if_neg hblock, hdevice,
    checksumBlock, Option.bind_eq_bind, Option.bind_some] at h
  rw [if_neg (fun hc => hblock hc.1)] at h
  simp only [Option.bind_some, packRequest, if_pos hstream, hver, if_pos hnew, streamArguments,
    streamTail, if_pos hchannels, channelBytes, if_pos hboth, loopCycles, if_pos hlow, if_neg hresend,
    Option.bind_eq_bind] at h
  obtain ⟨⟨d₂, tail⟩, htail, h⟩ := Option.bind_eq_some_iff.mp h
  obtain ⟨⟨d₃, cycles⟩, hcycles, htail⟩ := Option.bind_eq_some_iff.mp htail
  obtain ⟨⟨d₄, known⟩, hknown, hcycles⟩ := Option.bind_eq_some_iff.mp hcycles
  obtain ⟨rfl, rfl⟩ := Prod.mk.inj (Option.some.inj hcycles)
  obtain ⟨rfl, rfl⟩ := Prod.mk.inj (Option.some.inj htail)
  obtain ⟨rfl, rfl⟩ := Prod.mk.inj (Option.some.inj h)
  obtain ⟨features, loop, hkeeps⟩ := hchecks _ _ _ hknown
  have hcarrier : d₄.idev.carrier = d.idev.carrier := by rw [hkeeps]
  refine ⟨known, hknown, rfl, rfl, ?_⟩
  rw [hcode, hcarrier, countedCycles]

/-- The packets of a signal: its bytes, behind the settings of the device. -/
theorem transmitted_signal {d : Device} {request : DataPacket} {msg code : List Byte}
    {packets : List (List Byte)} (hver : d.idev.version = BODY_9)
    (hrequest : request = ⟨IG_DEV_SEND, code.length, codesBlock code⟩) (hpos : 0 < code.length)
    (h : Transmitted fl d request msg packets) :
    ∃ d₁ known, checkFeatures fl d UNKNOWN_FEATURES = some (d₁, known) ∧
      msg = hostPacket IG_DEV_SEND [BitVec.ofNat 8 code.length, d.idev.channels,
        (computeCarrierDelays fl d.idev.carrier (countedCycles d₁ known)).1,
        (computeCarrierDelays fl d.idev.carrier (countedCycles d₁ known)).2] ∧
      packets.flatten = code ∧ ∀ p ∈ packets, p ≠ [] := by
  have hcode : request.code = IG_DEV_SEND := by rw [hrequest]
  obtain ⟨haccept, d₁, p, d', a, hprep, hok, hfail, htrans, rfl, hwire⟩ := h
  obtain ⟨type, htype⟩ := Option.isSome_iff_exists.mp haccept
  obtain ⟨known, hknown, hsent, hsame, hmsg⟩ :=
    prepare_signal (fun _ _ _ hc => checkFeatures_keeps hc) hver hcode hprep
  have hkeeps := checkFeatures_keeps hknown
  have hnew : ¬d₁.idev.version < 3 := by
    rw [hkeeps.version, hver]
    decide
  have hsplit : ¬splitsRequest d.idev.version request.code := by
    rintro ⟨hold, -⟩
    rw [hver] at hold
    exact absurd hold (by decide)
  have hread : readBytes (codesBlock code) code.length = some code := by
    rw [codesBlock, if_neg (List.length_pos_iff.mp hpos), readBytes_some (Nat.le_refl _),
      List.take_length]
  simp only [deviceTransaction, if_neg hsplit, wholeTransaction, transaction, htype, hprep,
    Option.bind_eq_bind, Option.bind_some, transmit, hok, hfail, if_true] at htrans
  obtain ⟨⟨sent, packets'⟩, hstream, htrans⟩ := Option.map_eq_some_iff.mp htrans
  obtain ⟨rfl, -⟩ := Prod.mk.inj htrans
  obtain rfl : packets' = packets := (List.cons.inj (List.append_cancel_left hwire)).2
  have hsome : (0 : ℤ) < code.length := by exact_mod_cast hpos
  rw [dataStream, hsent, hsame, hrequest, if_pos hsome] at hstream
  simp only [hread, Option.bind_eq_bind, Option.bind_some, hnew, decide_false, Bool.false_and,
    sendData, sendPackets_eq_pieces] at hstream
  obtain ⟨-, hpieces⟩ := Prod.mk.inj (Option.some.inj hstream)
  rw [Int.toNat_zero, List.drop_zero] at hpieces
  have hm := d₁.idev.packetSize_pos
  refine ⟨d₁, known, hknown, ?_, ?_, ?_⟩
  · rw [hmsg, hrequest]
    rfl
  · rw [← hpieces]
    rw [← sendPackets_eq_pieces, sendPackets_flatten hm, if_neg (by decide), List.append_nil]
  · rw [← hpieces]
    exact fun p hp => Chunks.ne_nil_of_mem_pieces hm hp

/-! ### The delays -/

theorem sevens_lt (cycles : BitVec 32) : sevens cycles < 4 := by
  have hmod : ∀ n : BitVec 32, (n % 4).toNat < 4 := by
    intro n
    rw [BitVec.toNat_umod]
    exact Nat.mod_lt _ (by decide)
  have hlt := hmod (4 - cycles % 4)
  have hfour : (4 : Byte).toNat = 4 := rfl
  rw [sevens, BitVec.lt_def, BitVec.toNat_setWidth, hfour]
  omega

/-- Some of the sevens are always skipped. -/
theorem computeCarrierDelays_ne_zero (carrier : Carrier) (loopCycles : Byte) :
    (computeCarrierDelays fl carrier loopCycles).1 ≠ 0 := by
  have hskip : ∀ n : Byte, n < 4 → (4 - n) * 2 ≠ 0 := by decide +kernel
  exact hskip _ (sevens_lt _)

/-- The delays make the nearest number of cycles, for all carriers but those of 82 cycles. -/
theorem halfPeriod_iff (carrier : Carrier) :
    halfPeriod (computeCarrierDelays Binary64.nearest carrier LOOP_CYCLES).1
        (computeCarrierDelays Binary64.nearest carrier LOOP_CYCLES).2 = some (nearestCycles carrier) ↔
      nearestCycles carrier ≠ 82 := by
  obtain ⟨hlow, hhigh⟩ := nearestCycles_bounds carrier
  have hcycles : carrierCycles Binary64.nearest carrier.hz = nearestCycles carrier := by
    rw [carrierCycles_nearest, nearestCycles_eq]
  rw [computeCarrierDelays, hcycles]
  constructor
  · intro h heq
    rw [heq] at h
    revert h
    decide +kernel
  · intro hne
    exact ((split_exact _ hlow hhigh).mpr hne).2.2.2.2

/-! ### A device that tells the cycles of its loop -/

/-- When the features are known, the cycles are those of the loop. -/
def CountsLoop (fl : ℚ → ℚ) (d : Device) : Prop :=
  ∀ d₁, checkFeatures fl d UNKNOWN_FEATURES = some (d₁, true) → d₁.idev.cycles = LOOP_CYCLES

theorem countedCycles_eq {d d₁ : Device} {known : Bool} (h : CountsLoop fl d)
    (hknown : checkFeatures fl d UNKNOWN_FEATURES = some (d₁, known)) :
    countedCycles d₁ known = LOOP_CYCLES := by
  cases known with
  | true => exact h d₁ hknown
  | false => rfl

/-- It does if it has told them before. -/
theorem countsLoop_of_known {d : Device} (hfeatures : d.idev.features ≠ UNKNOWN_FEATURES)
    (hcycles : d.idev.cycles = LOOP_CYCLES) : CountsLoop fl d := by
  intro d₁ h
  unfold checkFeatures at h
  split_ifs at h
  · rw [knownFeatures, if_neg hfeatures] at h
    simp only [Option.bind_eq_bind, Option.bind_some, if_neg hfeatures] at h
    obtain ⟨rfl, -⟩ := Prod.mk.inj (Option.some.inj h)
    exact hcycles
  · exact absurd (Prod.mk.inj (Option.some.inj h)).2 (by decide)

/-- The answer of this firmware to the request for the features. -/
def featuresAnswer (features : Byte) : List Byte :=
  replyHeader IG_DEV_GETFEATURES ++ [features, LOOP_CYCLES]

theorem mainRecv_features {m : Mcu} {queue : List (List Byte)} (hrun : ¬halted m)
    (hout : m.out = hostPacket IG_DEV_GETFEATURES [] :: queue) :
    ∃ ms, mainRecv others m = some ms ∧ ms.sent = m.sent ++ [featuresAnswer m.features] := by
  have hnone : ([] : List Byte).length ≤ 4 := Nat.zero_le 4
  obtain ⟨m₁, hmain, he⟩ := mainRecv_body others hnone hrun hout (by decide)
  obtain ⟨m₂, hm₂⟩ : ∃ m₂, m₂ = ((m₁.setCtl CCODE IG_DEV_GETFEATURES).setCtl CDATA
    m₁.features).setCtl (CDATA + 1) LOOP_CYCLES := ⟨_, rfl⟩
  have hrun₂ : ¬halted m₂ := by
    rw [hm₂]
    exact he.running
  obtain ⟨ram, hanswer, -⟩ := writeControl_eq hrun₂ (show 2 ≤ 4 by decide)
  have hcode : m₂.ctl CCODE = IG_DEV_GETFEATURES := by
    rw [hm₂]
    rfl
  have hdata : ctlData m₂ 2 = [m₁.features, LOOP_CYCLES] := by
    rw [hm₂]
    rfl
  rw [hcode, hdata, he.features] at hanswer
  have hbody : bodyHandler others IG_DEV_GETFEATURES m₁ = writeControl (CTL_BASE_SIZE + 2) m₂ := by
    rw [hm₂]
    rfl
  refine ⟨_, hmain.trans (hbody.trans hanswer), ?_⟩
  show m₂.sent ++ _ = _
  rw [hm₂, ← he.sent]
  rfl

/-- A transaction whose preparation changes nothing: it fails, or it ends with the answer. -/
theorem transaction_closes {checks : Device → Option (Device × Bool)} {d d' : Device}
    {request : DataPacket} {type : PacketType} {p : Prepared} {a : Answer}
    (hprepare : prepare fl checks d request = some (d, p))
    (htype : checkIncomingProtocol (some d.idev.version) request false = some type)
    (hfail : d.usb.outcome.failAt = none)
    (h : transaction fl checks d request false = some (d', a)) :
    d'.idev = d.idev ∧
      (a.ok = false ∨ a = closeTransaction type p.request true d.usb.outcome.ack) := by
  have hwrote := h
  rw [transaction, htype] at hwrote
  simp only [hprepare, Option.bind_eq_bind, Option.bind_some, transmit] at hwrote
  cases hsent : d.usb.outcome.controlSent with
  | true =>
      rw [hsent, if_pos rfl] at hwrote
      obtain ⟨⟨sent, packets⟩, -, heq⟩ := Option.map_eq_some_iff.mp hwrote
      obtain ⟨rfl, -⟩ := Prod.mk.inj heq
      exact ⟨rfl, .inr (transaction_answer htype hprepare rfl hsent hfail h)⟩
  | false =>
      rw [hsent] at hwrote
      obtain ⟨rfl, rfl⟩ := Prod.mk.inj (Option.some.inj hwrote)
      exact ⟨rfl, .inl rfl⟩

/-- It does if it is asked now, whether the answer arrives or not. -/
theorem countsLoop_of_answer {d : Device} {features : Byte} {settings : ReaderSettings}
    (fault : Fault) (hver : d.idev.version = BODY_9) (hsettings : settings.version = BODY_9)
    (hunknown : d.idev.features = UNKNOWN_FEATURES) (hfail : d.usb.outcome.failAt = none)
    (hack : d.usb.outcome.ack = fault.ack (readerResponse settings [featuresAnswer features])) :
    CountsLoop fl d := by
  have htype : findTypeEntry IG_DEV_GETFEATURES BODY_9 =
      some ⟨IG_DEV_GETFEATURES, CTL_TODEV, NO_PAYLOAD, true, 2⟩ := by decide
  have hchecked : checkIncomingProtocol (some d.idev.version) (bareRequest IG_DEV_GETFEATURES)
      false = some ⟨IG_DEV_GETFEATURES, CTL_TODEV, NO_PAYLOAD, true, 2⟩ := by
    rw [hver]
    decide
  have hresponse : readerResponse settings [featuresAnswer features] =
      some ⟨IG_DEV_GETFEATURES, 2, some [features, LOOP_CYCLES]⟩ := by
    rw [← hsettings] at htype
    have hnew : 0x200 ≤ settings.version := by
      rw [hsettings]
      decide
    exact readerResponse_single hnew htype rfl (.inr (show 2 ≤ [features, LOOP_CYCLES].length from
      Nat.le_refl 2))
  have hprepare : prepare fl (fun d => some (d, false)) d (bareRequest IG_DEV_GETFEATURES) =
      some (d, ⟨controlPacket IG_DEV_GETFEATURES [], 0, bareRequest IG_DEV_GETFEATURES⟩) := by
    have hcode : deviceCode IG_DEV_GETFEATURES d.idev.version = IG_DEV_GETFEATURES := by
      rw [hver]
      decide
    have hlabel : replaceLabel (bareRequest IG_DEV_GETFEATURES) d.idev.version =
        some (bareRequest IG_DEV_GETFEATURES) := rfl
    have hforget : forgetFeatures d (bareRequest IG_DEV_GETFEATURES).code = d := rfl
    have hsame : (bareRequest IG_DEV_GETFEATURES).code = IG_DEV_GETFEATURES := rfl
    rw [prepare, hlabel]
    simp only [Option.bind_eq_bind, Option.bind_some, hforget]
    rw [hsame, hcode]
    rfl
  intro d₁ h
  unfold checkFeatures at h
  split_ifs at h
  · simp only [Option.bind_eq_bind, Option.bind_eq_some_iff] at h
    obtain ⟨d₂, hknown, h⟩ := h
    split_ifs at h with hstill
    · exact absurd (Prod.mk.inj (Option.some.inj h)).2 (by decide)
    · obtain ⟨rfl, -⟩ := Prod.mk.inj (Option.some.inj h)
      rw [knownFeatures, if_pos hunknown, readFeatures] at hknown
      simp only [Option.bind_eq_bind, Option.bind_eq_some_iff] at hknown
      obtain ⟨⟨d₃, a⟩, htransaction, hstore⟩ := hknown
      obtain ⟨hidev, hanswer⟩ := transaction_closes hprepare hchecked hfail htransaction
      -- without an answer the features stay unknown
      have hfailed : a.ok ≠ false := by
        intro hok
        rw [hok] at hstore
        obtain rfl := Option.some.inj hstore
        rw [hidev] at hstill
        exact hstill hunknown
      obtain hok | hclosed := hanswer
      · exact absurd hok hfailed
      · rw [hack, hresponse] at hclosed
        cases fault with
        | intact =>
            have haccepted : a = ⟨true, bareRequest IG_DEV_GETFEATURES,
                some ⟨IG_DEV_GETFEATURES, 2, some [features, LOOP_CYCLES]⟩⟩ := hclosed
            rw [haccepted] at hstore
            obtain rfl := Option.some.inj hstore
            rfl
        | unsent => exact absurd (congrArg Answer.ok hclosed) hfailed
        | unanswered => exact absurd (congrArg Answer.ok hclosed) hfailed
  · exact absurd (Prod.mk.inj (Option.some.inj h)).2 (by decide)

/-! ### The whole way -/

section

variable {s r : Session} {d : Device} {words : List (BitVec 32)} {msg : List Byte}
  {packets queue : List (List Byte)} {m : Mcu}

end

/-! ### A pulse of 400 periods -/

/-- A device with a carrier of 25.6 kHz that has told its features. -/
def playingDevice : Device :=
  ((burstDevice.setCarrier ⟨25600, by decide, by decide⟩).setFeatures HAS_LEDS).setCycles LOOP_CYCLES

/-- A client sends a pulse of 15625 microseconds. -/
def pulseSession : Session :=
  ⟨⟨true, []⟩, some playingDevice, ⟨0, 0, IG_PROTOCOL_VERSION⟩,
    ⟨IG_DEV_SEND, 4, some [0x09, 0x3D, 0x00, 0x00]⟩⟩

theorem pulse_cycles : ([15625] : List (BitVec 32)).map
    (entryCycles Binary64.nearest playingDevice.idev.carrier.hz) = [400] := by
  have hentry : entryCycles Binary64.nearest 25600 15625 = 400 := by
    have h₁ : Binary64.nearest (1 / 64) = 1 / 64 :=
      Binary64.nearest_of_dyadic (m := 1) (e := -6) (by norm_num) (by norm_num)
    have h₂ : Binary64.nearest 400 = 400 :=
      Binary64.nearest_of_dyadic (m := 400) (e := 0) (by norm_num) (by norm_num)
    have h₃ : Binary64.nearest (801 / 2) = 801 / 2 :=
      Binary64.nearest_of_dyadic (m := 801) (e := -1) (by norm_num) (by norm_num)
    have hmask : (15625 &&& IG_PULSE_MASK : BitVec 32).toNat = 15625 := by decide
    have hfloor : ⌊(801 / 2 : ℚ)⌋₊ = 400 := by
      apply (Nat.floor_eq_iff (by norm_num)).mpr
      constructor <;> norm_num
    rw [entryCycles, hmask]
    norm_num [h₁, h₂, h₃, hfloor]
  exact congrArg (· :: []) hentry

end IguanaIR
