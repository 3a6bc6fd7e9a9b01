import IguanaIR.Firmware.Spares

/-! # Sending a code again

`IG_DEV_RESEND` transmits what is in the buffer, with the length that the last transmission left
in `tmp3`.  Most commands spare both (`Serves`), and `Saved` says that they are still there.
`IG_DEV_GETVERSION` does not: it reads a page of the flash into the buffer, and the number of the
page goes through `tmp3`. -/

namespace IguanaIR.Firmware

/-! ### Commands that leave the code alone -/

/-- The code in the buffer and its length are spared, the queue stays, and so does a halt. -/
structure Serves (m m' : Mcu) : Prop extends Spares tmp3 m m' where
  out : m'.out = m.out
  halted_iff : halted m' ↔ halted m

namespace Serves

variable {m m₁ m₂ m₃ : Mcu}

theorem refl (m : Mcu) : Serves m m := ⟨.refl m, rfl, Iff.rfl⟩

theorem trans (h : Serves m₁ m₂) (h' : Serves m₂ m₃) : Serves m₁ m₃ :=
  ⟨h.toSpares.trans h'.toSpares, h'.out.trans h.out, h'.halted_iff.trans h.halted_iff⟩

theorem of_silent (h : Spares tmp3 m₁ m₂) (h' : Silent m₁ m₂) : Serves m₁ m₂ :=
  ⟨h, h'.out, h'.halted_iff⟩

/-- The variables that the answers are built in. -/
def answerVariables : List Byte := [tmp1, tmp2, controlPkt + 0, controlPkt + 1, controlPkt + 2,
  controlPkt + CCODE, controlPkt + CDATA, controlPkt + (CDATA + 1)]

theorem write {a : Byte} (v : Byte) (h : a ∈ answerVariables) : Serves m (m.write a v) := by
  have hanswer : ∀ a ∈ answerVariables, bufferPtr ≤ a ∧ a ≠ tmp3 ∧ loaderFlags ≠ a := by decide
  obtain ⟨hbehind, hlength, hflags⟩ := hanswer a h
  refine ⟨.write v hbehind hlength, rfl, ?_⟩
  unfold halted
  rw [Mcu.write_ne _ _ hflags]

theorem running (h : Serves m m') (hrun : ¬halted m) : ¬halted m' :=
  fun hh => hrun (h.halted_iff.mp hh)

end Serves

theorem writePacket_serves {m : Mcu} (hrun : ¬halted m) (size data : Byte) :
    ∃ m', writePacket size data m = some m' ∧ Serves m m' := by
  have hserves : Serves m ((m.write tmp1 size).write tmp2 data) :=
    (Serves.write _ (by decide)).trans (.write _ (by decide))
  refine ⟨_, writePacket_eq hrun size data, hserves.trans ?_⟩
  exact ⟨⟨fun _ _ => rfl, rfl, id, fun ho => ⟨ho.on, ho.overflow, ho.enabled, ho.size⟩⟩, rfl, Iff.rfl⟩

theorem writeControl_serves {m₀ m : Mcu} (hrun : ¬halted m₀) (h : Serves m₀ m) (size : Byte) :
    ∃ m', writeControl size m = some m' ∧ Serves m₀ m' := by
  have hheader : Serves m (((m.setCtl 0 0).setCtl 1 0).setCtl 2 TO_PC) :=
    ((Serves.write _ (by decide)).trans (.write _ (by decide))).trans (.write _ (by decide))
  obtain ⟨m', hwrite, hserves⟩ := writePacket_serves ((h.trans hheader).running hrun) size controlPkt
  exact ⟨m', hwrite, (h.trans hheader).trans hserves⟩

/-! ### The pins -/

theorem loadPins_serves (m : Mcu) : Serves m (loadPins m) := by
  have hset (m : Mcu) (v w : Byte) : Serves m ((m.setCtl CDATA v).setCtl (CDATA + 1) w) :=
    (Serves.write _ (by decide)).trans (.write _ (by decide))
  unfold loadPins
  dsimp only
  split_ifs
  · exact (Serves.write _ (by decide)).trans (hset _ _ _)
  · exact ((hset m _ _).trans (.write _ (by decide))).trans (hset _ _ _)

theorem storePins_serves (m : Mcu) : Serves m (storePins m) := by
  have hreg (m : Mcu) (r : Reg) (v : Byte) : Serves m (m.setReg r v) := ⟨.setReg m r v, rfl, Iff.rfl⟩
  unfold storePins
  dsimp only
  split_ifs
  · exact (Serves.write _ (by decide)).trans (hreg _ _ _)
  · exact (((Serves.write _ (by decide)).trans (.write _ (by decide))).trans (hreg _ _ _)).trans
      (hreg _ _ _)

theorem hasGpios_serves {m : Mcu} (hrun : ¬halted m) :
    ∃ m' gpios, hasGpios m = some (m', gpios) ∧ Serves m m' := by
  unfold hasGpios
  split_ifs
  · exact ⟨m, true, rfl, .refl m⟩
  · obtain ⟨m', hwrite, hserves⟩ := writeControl_serves (m := m.setCtl CCODE IG_DEV_INVALID_ARG) hrun
      (.write _ (by decide)) CTL_BASE_SIZE
    refine ⟨m', false, ?_, hserves⟩
    rw [hwrite]
    rfl

/-- A pin function, and the answer behind it. -/
theorem pins_serves {f : Mcu → Mcu} (hf : ∀ m, Serves m (f m)) {m : Mcu} (hrun : ¬halted m)
    (size : Byte) :
    ∃ m', ((do let (m, gpios) ← hasGpios m; some (if gpios then f m else m)).bind
      (writeControl size)) = some m' ∧ Serves m m' := by
  obtain ⟨m₁, gpios, hgpios, hserves⟩ := hasGpios_serves hrun
  have hpins : Serves m (if gpios then f m₁ else m₁) := by
    split_ifs
    · exact hserves.trans (hf m₁)
    · exact hserves
  obtain ⟨m', hwrite, hserves'⟩ := writeControl_serves hrun hpins size
  refine ⟨m', ?_, hserves'⟩
  rw [hgpios]
  exact hwrite

/-! ### A round of the main loop -/

/-- The commands that come between the two transmissions. -/
def queries : List Byte :=
  [IG_DEV_GETVERSION, IG_DEV_GETFEATURES, IG_DEV_GETBUFSIZE, IG_DEV_GETPINS, IG_DEV_SETPINS]

theorem bodyHandler_serves (others : Byte → Mcu → Option Mcu) {code : Byte} (hcode : code ∈ queries)
    (hversion : code ≠ IG_DEV_GETVERSION) {m : Mcu} (hrun : ¬halted m) :
    ∃ m', bodyHandler others code m = some m' ∧ Serves m m' := by
  simp only [queries, List.mem_cons, List.not_mem_nil, or_false, hversion, false_or] at hcode
  rcases hcode with rfl | rfl | rfl | rfl
  · apply writeControl_serves hrun
    exact ((Serves.write _ (by decide)).trans (.write _ (by decide))).trans (.write _ (by decide))
  · apply writeControl_serves hrun
    exact (Serves.write _ (by decide)).trans (.write _ (by decide))
  · exact pins_serves loadPins_serves hrun _
  · exact pins_serves storePins_serves hrun _

/-- A packet is taken off the queue, into the control packet. -/
theorem Serves.of_packet {m : Mcu} {ram : Byte → Byte} {out : List (List Byte)}
    (h : ∀ x, x < controlPkt → x ≠ tmp1 → x ≠ tmp2 → ram x = m.ram x) :
    Serves { m with out := out } { m with ram := ram, out := out } := by
  have hspared : ∀ x, x < bufferPtr ∨ x = tmp3 → x < controlPkt ∧ x ≠ tmp1 ∧ x ≠ tmp2 := by decide
  refine ⟨.of_ram ?_, rfl, ?_⟩
  · intro x hx
    obtain ⟨hlt, h₁, h₂⟩ := hspared x hx
    exact h x hlt h₁ h₂
  · unfold halted
    dsimp only
    rw [h loaderFlags (by decide) (by decide) (by decide)]

theorem readControl_serves {m : Mcu} {code : Byte} {arguments : List Byte} {out : List (List Byte)}
    (hlen : arguments.length ≤ 4) (hout : m.out = hostPacket code arguments :: out) :
    ∃ m', readControl m = some (m', code) ∧ Serves { m with out := out } m' ∧
      ∀ i : ℕ, i < 4 → m'.ctl (CDATA + BitVec.ofNat 8 i) = arguments.getD i 0 := by
  obtain ⟨m', hread, ⟨ram, rfl⟩, -, harg, hbelow⟩ := readControl_some hlen hout
  exact ⟨_, hread, .of_packet hbelow, harg⟩

theorem bodyFlags_serves (m : Mcu) (code : Byte) : Serves m (bodyFlags (m.write tmp1 code)) :=
  (Serves.write code (by decide)).trans
    (.of_silent (bodyFlags_spares _ (by decide) (by decide)) (bodyFlags_silent _))

/-! ### The version -/

/-- The page that the version is read from, and its number. -/
def versionPage : Byte := BitVec.ofNat 8 (BODY_JUMPS / 64)

theorem execSsc_read_tmp3 (m : Mcu) : (execSsc .read m).ram tmp3 = m.ram tmp3 := by
  obtain ⟨ram, hparameters, -, hptr, hram⟩ := sscParameters_eq .read m
  have hbuf : buffer.toNat = 93 := rfl
  have htmp3 : tmp3.toNat = 247 := rfl
  have hlen : ((List.range FLASH_BLOCK_SIZE).map (m.flash (ram BLOCKID))).length = 64 := by
    rw [List.length_map, List.length_range, FLASH_BLOCK_SIZE]
  simp only [execSsc, hparameters, hptr]
  rw [Mcu.writeAll_ram_of_lt _ _ _ _ (by omega) (by omega)]
  exact hram tmp3 (.inr rfl)

/-- Part of what is stored. -/
theorem Stored.take {m : Mcu} {a : Byte} {bytes : List Byte} (h : Stored m a bytes) (n : ℕ) :
    Stored m a (bytes.take n) := by
  intro i hi
  rw [List.length_take] at hi
  rw [List.getElem_take]
  exact h i (by omega)

/-- **`IG_DEV_GETVERSION` leaves the start of its page behind**, with the page's number as the
length. -/
theorem mainGetversion_page {m : Mcu} (hrun : ¬halted m) :
    ∃ m', mainGetversion m = some m' ∧ m'.ram tmp3 = versionPage ∧
      Stored m' buffer ((m.pageBytes versionPage).take versionPage.toNat) ∧
      m'.flash = m.flash ∧ (m.Off → m'.Off) ∧ m'.out = m.out ∧ ¬halted m' := by
  obtain ⟨m₀, hm₀⟩ : ∃ m₀, m₀ = m.write tmp3 versionPage := ⟨_, rfl⟩
  have hpage : m₀.ram tmp3 = versionPage := by rw [hm₀, Mcu.write_same]
  have hrun₀ : ¬halted m₀ := by
    unfold halted
    rw [hm₀, Mcu.write_ne _ _ (by decide)]
    exact hrun
  obtain ⟨ram, hread, hstored, hflags⟩ := execSsc_read_stored m₀
  have htmp3 := execSsc_read_tmp3 m₀
  rw [hread, hpage] at htmp3
  have hrun₁ : ¬halted { m₀ with ram := ram } := by
    unfold halted
    dsimp only
    rw [hflags]
    exact hrun₀
  -- the page is read, and the answer spares it
  obtain ⟨m', hanswer, hserves⟩ := writeControl_serves hrun₁
    (((Serves.write IG_DEV_GETVERSION (a := controlPkt + CCODE) (by decide)).trans
      (.write (a := controlPkt + CDATA) (ram (buffer + 1)) (by decide))).trans
      (.write (a := controlPkt + (CDATA + 1)) VERSION_ID_HIGH (by decide))) (CTL_BASE_SIZE + 2)
  refine ⟨m', ?_, ?_, ?_, ?_, ?_, ?_, hserves.running hrun₁⟩
  · rw [mainGetversion, ← versionPage, ← hm₀, hread]
    exact hanswer
  · rw [hserves.ram tmp3 (.inr rfl)]
    exact htmp3
  · rw [hpage] at hstored
    have hbytes : m₀.pageBytes versionPage = m.pageBytes versionPage := by rw [hm₀]; rfl
    rw [← hbytes]
    apply hserves.stored (hstored.take _)
    rw [List.length_take, Mcu.pageBytes_length]
    decide
  · rw [hserves.flash, hm₀]
    rfl
  · intro hoff
    apply hserves.off
    rw [hm₀]
    exact ⟨hoff.on, hoff.overflow, hoff.enabled, hoff.size⟩
  · rw [hserves.out, hm₀]
    rfl

/-! ### The code that is saved -/

/-- Between two commands, with the receiver off: these bytes are in the buffer, and their length
is saved. -/
structure Saved (page : List Byte) (code : List Byte) (m : Mcu) : Prop where
  stored : Stored m buffer code
  length : m.ram tmp3 = BitVec.ofNat 8 code.length
  pos : 0 < code.length
  le : code.length ≤ 150
  page : m.pageBytes versionPage = page
  running : ¬halted m
  out : m.out = []
  off : m.Off

theorem Saved.serves {page code : List Byte} {m m' : Mcu} (h : Saved page code m)
    (hs : Serves m m') : Saved page code m' where
  stored := hs.stored h.stored h.le
  length := (hs.ram tmp3 (.inr rfl)).trans h.length
  pos := h.pos
  le := h.le
  page := by
    rw [← h.page, Mcu.pageBytes, hs.flash]
    rfl
  running := hs.running h.running
  out := hs.out.trans h.out
  off := hs.off h.off

/-- What may come between the two transmissions. -/
def MainEvent.Between : MainEvent → Prop
  | .command code arguments => code ∈ queries ∧ arguments.length ≤ 4
  | _ => True

instance : DecidablePred MainEvent.Between
  | .command _ _ => inferInstanceAs (Decidable (_ ∧ _))
  | .round => isTrue trivial
  | .tcap _ _ => isTrue trivial
  | .twrap => isTrue trivial

def MainEvent.readsVersion : MainEvent → Bool
  | .command code _ => code == IG_DEV_GETVERSION
  | _ => false

/-- The bytes that are in the buffer after these events. -/
def bufferAfter (page code : List Byte) (events : List MainEvent) : List Byte :=
  if events.any MainEvent.readsVersion then page.take versionPage.toNat else code

section

variable (others : Byte → Mcu → Option Mcu) {page code : List Byte} {m : Mcu}

/-- The packet of a command, in the queue of a device that waits for one. -/
theorem mainLoop_command (h : Saved page code m) (packet : List Byte) (rest : List (List Byte)) :
    mainLoop others (m.hostWrites (packet :: rest)) = mainRecv others (m.hostWrites (packet :: rest)) := by
  have hrun : ¬halted (m.hostWrites (packet :: rest)) := h.running
  have hread : checkRead (m.hostWrites (packet :: rest)) = true := by
    rw [checkRead, Mcu.hostWrites, h.out]
    rfl
  rw [mainLoop, if_neg hrun, if_pos hread]

/-- The state in which the packet of a command has been read. -/
theorem command_read (h : Saved page code m) {c : Byte} {arguments : List Byte}
    (hlen : arguments.length ≤ 4) (rest : List (List Byte)) :
    ∃ m', readControl (m.hostWrites (hostPacket c arguments :: rest)) = some (m', c) ∧
      Serves { m with out := rest } m' := by
  have hout : (m.hostWrites (hostPacket c arguments :: rest)).out = hostPacket c arguments :: rest := by
    rw [Mcu.hostWrites, h.out]
    rfl
  obtain ⟨m', hread, hserves, -⟩ := readControl_serves hlen hout
  exact ⟨m', hread, hserves⟩

/-- **One command** leaves the code in the buffer, or the start of the version's page. -/
theorem command_saved (h : Saved page code m) {c : Byte} {arguments : List Byte}
    (hcode : c ∈ queries) (hlen : arguments.length ≤ 4) :
    ∃ m', mainLoop others (m.hostWrites [hostPacket c arguments]) = some m' ∧
      Saved page (bufferAfter page code [.command c arguments]) m' := by
  obtain ⟨m₁, hread, hserves⟩ := command_read h (c := c) hlen []
  have hm : ({ m with out := [] } : Mcu) = m := by rw [← h.out]
  rw [hm] at hserves
  have hsaved := h.serves hserves
  rw [mainLoop_command others h]
  by_cases hversion : c = IG_DEV_GETVERSION
  · subst hversion
    obtain ⟨m', hanswer, hlength, hstored, hflash, hoff, hout, hrun⟩ :=
      mainGetversion_page hsaved.running
    have htake : (page.take versionPage.toNat).length = versionPage.toNat := by
      rw [List.length_take, ← h.page, Mcu.pageBytes_length]
      rfl
    refine ⟨m', ?_, ?_⟩
    · simp only [mainRecv, hread, Option.bind_eq_bind, Option.bind_some]
      exact hanswer
    · change Saved page (page.take versionPage.toNat) m'
      rw [hsaved.page] at hstored
      refine ⟨hstored, ?_, ?_, ?_, ?_, hrun, hout.trans hsaved.out, hoff hsaved.off⟩
      · rw [hlength, htake]
        rfl
      · rw [htake]
        decide
      · rw [htake]
        decide
      · rw [← hsaved.page, Mcu.pageBytes, hflash]
        rfl
  · have hbody : c ∉ [0, IG_DEV_GETVERSION, IG_DEV_WRITEBLOCK, IG_DEV_CHECKSUM, IG_DEV_RESET] := by
      intro hc
      have hboth : ∀ c ∈ queries, c ≠ IG_DEV_GETVERSION →
          c ∉ [0, IG_DEV_GETVERSION, IG_DEV_WRITEBLOCK, IG_DEV_CHECKSUM, IG_DEV_RESET] := by decide
      exact hboth c hcode hversion hc
    have hflags := bodyFlags_serves m₁ c
    obtain ⟨m', hanswer, hserves'⟩ := bodyHandler_serves others hcode hversion
      (hflags.running hsaved.running)
    refine ⟨m', ?_, ?_⟩
    · rw [mainRecv_enters others hread hbody, hanswer]
    · have hnot : bufferAfter page code [.command c arguments] = code := by
        simp [bufferAfter, MainEvent.readsVersion, hversion]
      rw [hnot]
      exact hsaved.serves (hflags.trans hserves')

/-- A round in which the host has written nothing does nothing. -/
theorem round_saved (h : Saved page code m) : mainLoop others m = some m := by
  have hread : checkRead m = false := by
    rw [checkRead, h.out]
    rfl
  have hsize : m.bufSize < PACKET_SIZE - 1 := by
    rw [h.off.size]
    decide
  rw [mainLoop, if_neg h.running, hread, if_neg (by decide)]
  split_ifs
  · rfl
  · simp only [bodyLoopBody, if_pos h.off.overflow, Option.bind_eq_bind, Option.bind_some,
      Mcu.writeSignal, if_pos hsize]

/-- **One step** between the transmissions. -/
theorem mainStep_saved (h : Saved page code m) {e : MainEvent} (he : e.Between) :
    ∃ m', mainStep others m e = some m' ∧ Saved page (bufferAfter page code [e]) m' := by
  have henabled : ¬m.rxEnabled = true := by
    rw [h.off.enabled]
    decide
  cases e with
  | command c arguments => exact command_saved others h he.1 he.2
  | round => exact ⟨m, round_saved others h, h⟩
  | tcap rising timer => exact ⟨m, congrArg some (if_neg henabled), h⟩
  | twrap => exact ⟨m, congrArg some (if_neg henabled), h⟩

theorem bufferAfter_cons (e : MainEvent) (events : List MainEvent) :
    bufferAfter page (bufferAfter page code [e]) events = bufferAfter page code (e :: events) := by
  unfold bufferAfter
  rw [List.any_cons, List.any_cons, List.any_nil, Bool.or_false]
  cases e.readsVersion <;> cases events.any MainEvent.readsVersion <;> rfl

/-- **All the steps** between the transmissions. -/
theorem mainRun_saved (events : List MainEvent) (h : Saved page code m)
    (hevents : ∀ e ∈ events, e.Between) :
    ∃ m', events.foldlM (mainStep others) m = some m' ∧ Saved page (bufferAfter page code events) m' := by
  induction events generalizing code m with
  | nil => exact ⟨m, rfl, h⟩
  | cons e events ih =>
      obtain ⟨m₁, hstep, h₁⟩ := mainStep_saved others h (hevents e (List.mem_cons_self ..))
      obtain ⟨m', hrest, h'⟩ := ih h₁ (fun e he => hevents e (List.mem_cons_of_mem _ he))
      rw [bufferAfter_cons] at h'
      refine ⟨m', ?_, h'⟩
      rw [List.foldlM_cons, hstep]
      exact hrest

/-! ### The two transmissions -/

/-- What the host writes for a code: the command with its length, and the data. -/
def sendPackets (code settings : List Byte) (data : List (List Byte)) : List (List Byte) :=
  hostPacket IG_DEV_SEND (BitVec.ofNat 8 code.length :: settings) :: data

/-- The command, and the packet with most settings. -/
def resendPackets (arguments settings : List Byte) : List (List Byte) :=
  [hostPacket IG_DEV_RESEND arguments, settings]

theorem rxDisable_ram (m : Mcu) : (rxDisable m).ram = m.ram := by
  rw [rxDisable, txPinsOff_ram]

theorem rxDisable_serves (m : Mcu) : Serves m (rxDisable m) :=
  .of_silent (rxDisable_spares m) (rxDisable_silent m)

/-- `IG_DEV_SEND` calls `transmit_code` with the code. -/
theorem sendCall_eq {m : Mcu} (hrun : ¬halted m) (hout : m.out = [])
    (hflags : m.rxFlags &&& RX_ON_FLAG = 0) {settings : List Byte} {data : List (List Byte)}
    (hpos : 0 < code.length) (hle : code.length ≤ 150) (hsettings : settings.length ≤ 3)
    (hdata : ∀ p ∈ data, p ≠ []) (hcode : data.flatten = code) :
    ∃ mt, transmitCall (m.hostWrites (sendPackets code settings data)) = some (mt, true) ∧
      Stored mt buffer code ∧ mt.ctl CDATA = BitVec.ofNat 8 code.length ∧ mt.flash = m.flash ∧
      mt.rxFlags &&& RX_ON_FLAG = 0 ∧ mt.out = [] ∧ ¬halted mt := by
  have hqueue : (m.hostWrites (sendPackets code settings data)).out =
      hostPacket IG_DEV_SEND (BitVec.ofNat 8 code.length :: settings) :: data := by
    rw [Mcu.hostWrites, hout]
    rfl
  obtain ⟨m₁, hread, hserves₁, hargs⟩ := readControl_serves
    (by rw [List.length_cons]; omega) hqueue
  obtain ⟨m₂, hm₂⟩ : ∃ m₂, m₂ = rxDisable (bodyFlags (m₁.write tmp1 IG_DEV_SEND)) := ⟨_, rfl⟩
  have hserves := hserves₁.trans ((bodyFlags_serves m₁ IG_DEV_SEND).trans (rxDisable_serves _))
  rw [← hm₂] at hserves
  have hrun₂ : ¬halted m₂ := hserves.running hrun
  have hnat : (BitVec.ofNat 8 code.length).toNat = code.length := by
    rw [BitVec.toNat_ofNat]
    omega
  have hctl : m₂.ctl CDATA = BitVec.ofNat 8 code.length := by
    have h := hargs 0 (by omega)
    rw [BitVec.add_zero] at h
    rw [hm₂, Mcu.ctl, rxDisable_ram, bodyFlags_ram _ (by decide) (by decide),
      Mcu.write_ne _ _ (by decide)]
    exact h
  have hne : m₂.ctl CDATA ≠ 0 := by
    intro h
    have h0 : (0 : Byte).toNat = 0 := rfl
    rw [hctl] at h
    rw [h] at hnat
    omega
  have hout₂ : m₂.out = data ++ [] := by rw [hserves.out, List.append_nil]
  obtain ⟨ram, hblock, hstored, hloader, hrest⟩ := @readBufferReal_block m₂ (m₂.ctl CDATA) data []
    hrun₂ hne (by rw [hctl, hnat]; exact hle) (by rwa [List.append_nil])
    (by rw [hcode, hctl, hnat]) hout₂
  refine ⟨{ m₂ with ram := ram, out := [] }, ?_, ?_, ?_, hserves.flash, hserves.flags hflags, rfl, ?_⟩
  · simp only [transmitCall, hread, Option.bind_eq_bind, Option.bind_some, if_true]
    rw [← hm₂]
    exact hblock
  · rw [hcode] at hstored
    exact hstored
  · exact (hrest _ (by decide)).trans hctl
  · intro hh
    apply hrun₂
    rw [← halted_bufclr]
    unfold halted at hh ⊢
    rw [Mcu.write_same, ← hloader]
    exact hh

/-- **`IG_DEV_SEND`** saves the code that it transmits. -/
theorem send_saved {m : Mcu} (hrun : ¬halted m) (hout : m.out = [])
    (hflags : m.rxFlags &&& RX_ON_FLAG = 0) {settings : List Byte} {data : List (List Byte)}
    (hpos : 0 < code.length) (hle : code.length ≤ 150) (hsettings : settings.length ≤ 3)
    (hdata : ∀ p ∈ data, p ≠ []) (hcode : data.flatten = code) :
    ∃ mt ms, transmitCall (m.hostWrites (sendPackets code settings data)) = some (mt, true) ∧
      transmitted mt = code ∧ mt.ctl CDATA = BitVec.ofNat 8 code.length ∧
      mainLoop others (m.hostWrites (sendPackets code settings data)) = some ms ∧
      Saved (m.pageBytes versionPage) code ms := by
  obtain ⟨mt, hcall, hstored, hctl, hflash, hflags', hout', hrun'⟩ :=
    sendCall_eq hrun hout hflags hpos hle hsettings hdata hcode
  obtain ⟨hstored', hlength, hflash', hoff⟩ := sendBuffer_saves hstored hle hflags'
  have hsilent := sendBuffer_silent mt
  have hrun'' : ¬halted (sendBuffer mt) := fun hh => hrun' (hsilent.halted_iff.mp hh)
  have hsaved : Saved (m.pageBytes versionPage) code (sendBuffer mt) := by
    refine ⟨hstored', hlength.trans hctl, hpos, hle, ?_, hrun'', hsilent.out.trans hout', hoff⟩
    rw [Mcu.pageBytes, hflash', hflash]
    rfl
  obtain ⟨ms, hack, hserves⟩ := writeControl_serves hrun'' (.refl _) CTL_BASE_SIZE
  refine ⟨mt, ms, hcall, transmitted_stored hpos hle hctl hstored, hctl, ?_, hsaved.serves hserves⟩
  have hread : checkRead (m.hostWrites (sendPackets code settings data)) = true := by
    rw [checkRead, Mcu.hostWrites, hout]
    rfl
  have hloop : ¬halted (m.hostWrites (sendPackets code settings data)) := hrun
  rw [mainLoop, if_neg hloop, if_pos hread, mainRecv_transmits others hcall]
  exact hack

/-- A search for a byte that is not zero ends where there is one. -/
theorem skipZeros_isSome {m : Mcu} : ∀ (n : ℕ) {x : Byte} (i : ℕ), i < n →
    m.ram (x + BitVec.ofNat 8 i) ≠ 0 → (skipZeros m x n).isSome
  | n + 1, x, i, hi, hne => by
      rw [skipZeros]
      split_ifs with hzero
      · cases i with
        | zero =>
            rw [BitVec.add_zero] at hne
            exact absurd hzero hne
        | succ i =>
            rw [add_ofNat_succ] at hne
            exact skipZeros_isSome n i (by omega) hne
      · rfl

/-- Any packet is read as a control packet; the pointer in `tmp2` is not zero. -/
theorem readControl_settings {m : Mcu} {packet : List Byte} {out : List (List Byte)}
    (hne : packet ≠ []) (hlen : packet.length ≤ 8) (hout : m.out = packet :: out) :
    ∃ m' c, readControl m = some (m', c) ∧ Serves { m with out := out } m' := by
  obtain ⟨m', hread, ⟨ram, hm'⟩, -, hbelow⟩ := readPacket_clear hne hlen hout
  have hbase : controlPkt.toNat = 248 := rfl
  have hpointer : m'.ram tmp2 = controlPkt := by
    have hclear : (clearControlPkt m).out = packet :: out := by
      obtain ⟨ram', hclear⟩ := writeAll_eq (List.replicate PACKET_SIZE.toNat 0) m controlPkt
      rw [clearControlPkt, hclear]
      exact hout
    rw [readPacket, hclear] at hread
    simp only [if_neg hne, Option.some.injEq] at hread
    rw [← hread, Mcu.writeAll_ram_of_lt _ _ _ _ (by omega) (.inl (by decide)), Mcu.write_same]
  have hfound : (skipZeros m' controlPkt 256).isSome := by
    apply skipZeros_isSome 256 254 (by decide)
    rw [show controlPkt + BitVec.ofNat 8 254 = tmp2 by decide, hpointer]
    decide
  obtain ⟨x, hx⟩ := Option.isSome_iff_exists.mp hfound
  refine ⟨m', if m'.ram x = FROM_PC then m'.ram (x + 1) else 0, ?_, ?_⟩
  · simp only [readControl, hread, Option.bind_eq_bind, Option.bind_some, hx]
  · rw [hm'] at hbelow ⊢
    exact .of_packet hbelow

/-- **`IG_DEV_RESEND`** transmits the code that is saved. -/
theorem resend_saved (h : Saved page code m) {arguments settings : List Byte}
    (harguments : arguments.length ≤ 4) (hne : settings ≠ []) (hsettings : settings.length ≤ 8) :
    ∃ mr, transmitCall (m.hostWrites (resendPackets arguments settings)) = some (mr, true) ∧
      transmitted mr = code ∧ mr.ctl CDATA = BitVec.ofNat 8 code.length := by
  obtain ⟨m₁, hread₁, hserves₁⟩ := command_read h (c := IG_DEV_RESEND) harguments [settings]
  have hserves₂ := hserves₁.trans (bodyFlags_serves m₁ IG_DEV_RESEND)
  obtain ⟨m₃, c, hread₃, hserves₃⟩ := readControl_settings hne hsettings hserves₂.out
  have hlength : m₃.ram tmp3 = BitVec.ofNat 8 code.length :=
    (hserves₃.ram tmp3 (.inr rfl)).trans ((hserves₂.ram tmp3 (.inr rfl)).trans h.length)
  have hstored : Stored m₃ buffer code :=
    hserves₃.stored (hserves₂.stored h.stored h.le) h.le
  obtain ⟨mr, hmr⟩ : ∃ mr, mr = rxDisable ((m₃.setCtl CCODE IG_DEV_RESEND).setCtl CDATA
    (m₃.ram tmp3)) := ⟨_, rfl⟩
  have hctl : mr.ctl CDATA = BitVec.ofNat 8 code.length := by
    rw [hmr, Mcu.ctl, rxDisable_ram, Mcu.setCtl, Mcu.write_same, hlength]
  have hserves : Serves m₃ mr := by
    rw [hmr]
    exact ((Serves.write _ (by decide)).trans (.write _ (by decide))).trans (rxDisable_serves _)
  refine ⟨mr, ?_, transmitted_stored h.pos h.le hctl (hserves.stored hstored h.le), hctl⟩
  have hne : IG_DEV_RESEND ≠ IG_DEV_SEND := by decide
  simp only [transmitCall, resendPackets, hread₁, Option.bind_eq_bind, Option.bind_some, if_neg hne,
    if_true, hread₃]
  rw [hmr]

/-- **The same bytes are transmitted again** unless a version was read in between, and then only
where the code is what its page starts with. -/
theorem resend_repeats_iff {m : Mcu} (hrun : ¬halted m) (hout : m.out = [])
    (hoff : m.rxFlags &&& RX_ON_FLAG = 0) {code settings : List Byte} {data : List (List Byte)}
    (hpos : 0 < code.length) (hle : code.length ≤ 150) (hsettings : settings.length ≤ 3)
    (hdata : ∀ p ∈ data, p ≠ []) (hcode : data.flatten = code) {events : List MainEvent}
    (hevents : ∀ e ∈ events, e.Between) {arguments packet : List Byte}
    (harguments : arguments.length ≤ 4) (hne : packet ≠ []) (hpacket : packet.length ≤ 8) :
    ∃ mt ms me mr, transmitCall (m.hostWrites (sendPackets code settings data)) = some (mt, true) ∧
      transmitted mt = code ∧
      mainLoop others (m.hostWrites (sendPackets code settings data)) = some ms ∧
      events.foldlM (mainStep others) ms = some me ∧
      transmitCall (me.hostWrites (resendPackets arguments packet)) = some (mr, true) ∧
      (transmitted mr = transmitted mt ∧ mr.ctl CDATA = mt.ctl CDATA ↔
        events.any MainEvent.readsVersion = false ∨
          code = (m.pageBytes versionPage).take versionPage.toNat) := by
  obtain ⟨mt, ms, hcall, htransmitted, hctl, hsend, hsaved⟩ :=
    send_saved others hrun hout hoff hpos hle hsettings hdata hcode
  obtain ⟨me, hbetween, hsaved'⟩ := mainRun_saved others events hsaved hevents
  obtain ⟨mr, hcall', htransmitted', hctl'⟩ := resend_saved hsaved' harguments hne hpacket
  refine ⟨mt, ms, me, mr, hcall, htransmitted, hsend, hbetween, hcall', ?_⟩
  rw [htransmitted, htransmitted', hctl, hctl', bufferAfter]
  cases events.any MainEvent.readsVersion with
  | false => simp
  | true =>
      rw [if_pos rfl]
      constructor
      · rintro ⟨hsame, -⟩
        exact .inr hsame.symm
      · rintro (hnone | hsame)
        · cases hnone
        · rw [← hsame]
          exact ⟨rfl, rfl⟩

end

/-! ### A version in between -/

/-- A device on which the body is programmed: its jump table starts with the version. -/
def programmed : Mcu :=
  { Mcu.cleared HAS_LEDS with flash := fun _ i => [0x50, 0x09, 0x7F].getD i 0 }

theorem resend_repeats_iff_features : ∃ mt ms me mr,
    transmitCall (programmed.hostWrites (sendPackets [0x01, 0x82] [0, 6, 0x31] [[0x01, 0x82]])) =
      some (mt, true) ∧ transmitted mt = [0x01, 0x82] ∧
    mainLoop (fun _ m => some m)
      (programmed.hostWrites (sendPackets [0x01, 0x82] [0, 6, 0x31] [[0x01, 0x82]])) = some ms ∧
    [.command IG_DEV_GETFEATURES [], .round].foldlM (mainStep (fun _ m => some m)) ms = some me ∧
    transmitCall (me.hostWrites (resendPackets [] [0, 0, 0, 0, 0xFF, 0, 6, 0x31])) = some (mr, true) ∧
    (transmitted mr = transmitted mt ∧ mr.ctl CDATA = mt.ctl CDATA ↔
      [MainEvent.command IG_DEV_GETFEATURES [], .round].any MainEvent.readsVersion = false ∨
        [0x01, 0x82] = (programmed.pageBytes versionPage).take versionPage.toNat) :=
  @resend_repeats_iff (fun _ m => some m) programmed (by decide) rfl (by decide) [0x01, 0x82]
    [0, 6, 0x31] [[0x01, 0x82]] (by decide) (by decide) (by decide) (by decide) rfl
    [.command IG_DEV_GETFEATURES [], .round] (by decide) [] [0, 0, 0, 0, 0xFF, 0, 6, 0x31]
    (by decide) (by decide) (by decide)

/-- A version between the two: the start of its page is transmitted in place of the code. -/
theorem version_transmitted : ∃ mt ms me mr,
    transmitCall (programmed.hostWrites (sendPackets [0x01] [0, 6, 0x31] [[0x01]])) =
      some (mt, true) ∧
    mainLoop (fun _ m => some m)
      (programmed.hostWrites (sendPackets [0x01] [0, 6, 0x31] [[0x01]])) = some ms ∧
    [.command IG_DEV_GETVERSION []].foldlM (mainStep (fun _ m => some m)) ms = some me ∧
    transmitCall (me.hostWrites (resendPackets [] [0, 0, 0, 0, 0xFF, 0, 6, 0x31])) = some (mr, true) ∧
    transmitted mt = [0x01] ∧ mt.ctl CDATA = 1 ∧
    transmitted mr = [0x50, 0x09, 0x7F] ++ List.replicate 45 0 ∧ mr.ctl CDATA = 48 := by
  obtain ⟨mt, ms, hcall, htransmitted, hctl, hsend, hsaved⟩ :=
    @send_saved (fun _ m => some m) [0x01] programmed (by decide) rfl (by decide) [0, 6, 0x31]
      [[0x01]] (by decide) (by decide) (by decide) (by decide) rfl
  obtain ⟨me, hbetween, hsaved'⟩ := mainRun_saved (fun _ m => some m)
    [.command IG_DEV_GETVERSION []] hsaved (by decide)
  obtain ⟨mr, hcall', htransmitted', hctl'⟩ := @resend_saved _ _ _ hsaved' []
    [0, 0, 0, 0, 0xFF, 0, 6, 0x31] (by decide) (by decide) (by decide)
  have hpage : bufferAfter (programmed.pageBytes versionPage) [0x01] [.command IG_DEV_GETVERSION []] =
      [0x50, 0x09, 0x7F] ++ List.replicate 45 0 := by decide
  rw [hpage] at htransmitted' hctl'
  exact ⟨mt, ms, me, mr, hcall, hsend, hbetween, hcall', htransmitted, hctl, htransmitted', hctl'⟩

end IguanaIR.Firmware
