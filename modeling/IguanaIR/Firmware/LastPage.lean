import IguanaIR.Firmware.Flash
import IguanaIR.M8c

/-! # Executing the last page

The handler of `IG_DEV_EXECUTE` in `body.asm`, which calls the last page of the flash.  The code
there may call `write_packet` through the jump table of the loader; the registers hold what the USB
library leaves in them behind such a call (`registers`), as they do before the page is called. -/

namespace IguanaIR.Firmware

open M8c

variable (registers : Mcu → Byte × Byte)

/-- The address of the last page. -/
def LAST_PAGE : ℕ := 0x1FC0

def LOADER_JUMPS : BitVec 16 := 0x0080

/-- `write_packet` in the jump table. -/
def WRITE_PACKET : BitVec 16 := LOADER_JUMPS + 4 * 5

/-- A byte of the flash as code. -/
def fetch (m : Mcu) (pc : ℕ) : Byte := m.flash (BitVec.ofNat 8 (pc / 64)) (pc % 64)

/-- What the code on a page works with: X has the packet size and A the data pointer. -/
def platform : Platform Mcu where
  write := Mcu.write
  call target c :=
    if target = WRITE_PACKET then
      (writePacket c.x c.a c.mem).map (fun m => ⟨(registers m).1, (registers m).2, m⟩)
    else none

/-- Default to executing the final page since nothing else is easy. -/
def executeBody (fuel : ℕ) (m : Mcu) : Option Mcu :=
  (run (platform registers) (fetch m) fuel LAST_PAGE ⟨(registers m).1, (registers m).2, m⟩).map
    (·.mem)

/-- The handlers of the body that are left, with this one. -/
def withExecute (fuel : ℕ) (others : Byte → Mcu → Option Mcu) (code : Byte) (m : Mcu) :
    Option Mcu :=
  if code = IG_DEV_EXECUTE then executeBody registers fuel m else others code m

/-! ### Code that sends a packet -/

/-- Store the bytes from an address on. -/
def storeOps (start : Byte) : List Byte → List Op
  | [] => []
  | b :: rest => .store start b :: storeOps (start + 1) rest

/-- Store a packet where the control packets are, and write it. -/
def sendOps (packet : List Byte) : List Op :=
  storeOps controlPkt packet ++ [.movX PACKET_SIZE, .movA controlPkt, .lcall WRITE_PACKET]

theorem storeOps_length : ∀ (start : Byte) (bytes : List Byte),
    (storeOps start bytes).length = bytes.length
  | _, [] => rfl
  | start, b :: rest => by
      rw [storeOps, List.length_cons, storeOps_length, List.length_cons]

theorem execAll_storeOps : ∀ (bytes : List Byte) (start : Byte) (c : Cpu Mcu),
    execAll (platform registers) (storeOps start bytes) c =
      some { c with mem := c.mem.writeAll start bytes }
  | [], _, _ => rfl
  | b :: rest, start, c => by
      rw [storeOps, execAll, Op.exec, Option.bind_some, execAll_storeOps rest]
      rfl

/-- **The code sends its packet**, and touches nothing but RAM. -/
theorem execAll_sendOps {packet : List Byte} (hlen : packet.length = 8) {c : Cpu Mcu}
    (hrun : ¬halted c.mem) :
    ∃ c' ram, execAll (platform registers) (sendOps packet) c = some c' ∧
      c'.mem = { c.mem with ram := ram, sent := c.mem.sent ++ [packet] } ∧
      ram loaderFlags = c.mem.ram loaderFlags := by
  have hroom : controlPkt.toNat + packet.length ≤ 256 := by
    rw [hlen]
    decide
  obtain ⟨ram, hwritten⟩ := writeAll_eq packet c.mem controlPkt
  have hflags : ram loaderFlags = c.mem.ram loaderFlags := by
    have h := Mcu.writeAll_ram_of_lt packet c.mem controlPkt loaderFlags hroom (.inl (by decide))
    rwa [hwritten] at h
  have hstored : Stored { c.mem with ram := ram } controlPkt packet := by
    rw [← hwritten]
    exact .writeAll hroom
  obtain ⟨m, hm⟩ : ∃ m : Mcu, m = { c.mem with ram := ram } := ⟨_, rfl⟩
  rw [← hm] at hstored
  have hrun' : ¬halted m := by
    unfold halted
    rw [hm]
    dsimp only
    rw [hflags]
    exact hrun
  have hpacket : ((m.write tmp1 PACKET_SIZE).write tmp2 controlPkt).readAll controlPkt
      PACKET_SIZE.toNat = packet := by
    have hne : ∀ i < 8, controlPkt + BitVec.ofNat 8 i ≠ tmp1 ∧
        controlPkt + BitVec.ofNat 8 i ≠ tmp2 := by decide
    have h : Stored ((m.write tmp1 PACKET_SIZE).write tmp2 controlPkt) controlPkt packet := by
      apply hstored.congr
      intro i hi
      obtain ⟨h₁, h₂⟩ := hne i (by omega)
      rw [Mcu.write_ne _ _ h₂, Mcu.write_ne _ _ h₁]
    have hread := h.readAll
    rwa [hlen] at hread
  have hwrite := writePacket_eq hrun' PACKET_SIZE controlPkt
  rw [hpacket] at hwrite
  obtain ⟨m₂, hm₂⟩ : ∃ m₂ : Mcu, m₂ = { (m.write tmp1 PACKET_SIZE).write tmp2 controlPkt with
    sent := m.sent ++ [packet] } := ⟨_, rfl⟩
  rw [← hm₂] at hwrite
  refine ⟨⟨(registers m₂).1, (registers m₂).2, m₂⟩, m₂.ram, ?_, ?_, ?_⟩
  · rw [sendOps, execAll_append, execAll_storeOps, Option.bind_some, hwritten, ← hm]
    simp only [execAll, Op.exec, Option.bind_some, platform, if_true, hwrite, Option.map_some]
  · rw [hm₂, hm]
    rfl
  · rw [hm₂]
    dsimp only
    rw [Mcu.write_ne _ _ (by decide), Mcu.write_ne _ _ (by decide), hm]
    exact hflags

/-! ### The whole page -/

/-- The code sends two packets. -/
theorem execAll_twoPackets {p₁ p₂ : List Byte} (h₁ : p₁.length = 8) (h₂ : p₂.length = 8)
    {c : Cpu Mcu} (hrun : ¬halted c.mem) :
    ∃ c' ram, execAll (platform registers) (sendOps p₁ ++ sendOps p₂) c = some c' ∧
      c'.mem = { c.mem with ram := ram, sent := c.mem.sent ++ [p₁, p₂] } := by
  obtain ⟨c₁, ram₁, hexec₁, hc₁, hflags₁⟩ := execAll_sendOps registers h₁ hrun
  have hrun₁ : ¬halted c₁.mem := by
    unfold halted
    rw [hc₁]
    dsimp only
    rw [hflags₁]
    exact hrun
  obtain ⟨c₂, ram₂, hexec₂, hc₂, -⟩ := execAll_sendOps registers h₂ hrun₁
  refine ⟨c₂, ram₂, ?_, ?_⟩
  · rw [execAll_append, hexec₁, Option.bind_some, hexec₂]
  · rw [hc₂, hc₁]
    simp only [List.append_assoc]
    rfl

/-- The bytes of a page are its code. -/
theorem placed_of_pageHolds {m : Mcu} {bytes rest : List Byte}
    (h : m.PageHolds 0x7F (bytes ++ rest)) (hlen : bytes.length ≤ FLASH_BLOCK_SIZE) :
    Placed (fetch m) LAST_PAGE bytes := by
  intro i hi
  rw [FLASH_BLOCK_SIZE] at hlen
  have hpage : (LAST_PAGE + i) / 64 = 127 := by
    unfold LAST_PAGE
    omega
  have hoffset : (LAST_PAGE + i) % 64 = i := by
    unfold LAST_PAGE
    omega
  rw [fetch, hpage, hoffset]
  refine (h i (by rw [List.length_append]; omega)).trans ?_
  rw [List.getElem_append_left hi]

/-- **A page that sends two packets** and returns. -/
theorem executeBody_sends {m : Mcu} {p₁ p₂ rest : List Byte} {fuel : ℕ} (hrun : ¬halted m)
    (h₁ : p₁.length = 8) (h₂ : p₂.length = 8) (hfuel : 23 ≤ fuel)
    (hpage : m.PageHolds 0x7F (((sendOps p₁ ++ sendOps p₂).flatMap Op.encode ++ [0x7F]) ++ rest))
    (hlen : ((sendOps p₁ ++ sendOps p₂).flatMap Op.encode ++ [0x7F]).length ≤ FLASH_BLOCK_SIZE) :
    ∃ ram, executeBody registers fuel m = some { m with
      ram := ram, sent := m.sent ++ [p₁, p₂] } := by
  obtain ⟨c', ram, hexec, hc'⟩ := execAll_twoPackets registers h₁ h₂
    (c := ⟨(registers m).1, (registers m).2, m⟩) hrun
  have hops : (sendOps p₁ ++ sendOps p₂).length < fuel := by
    simp only [sendOps, List.length_append, storeOps_length, h₁, h₂, List.length_cons,
      List.length_nil]
    omega
  refine ⟨ram, ?_⟩
  rw [executeBody, run_program _ _ _ (placed_of_pageHolds hpage hlen) hops, hexec, Option.map_some,
    hc']

/-! ### The request -/

/-- The flags of the loader have nothing to do with the flash. -/
theorem bodyFlags_flash (m : Mcu) : (bodyFlags m).flash = m.flash := by
  have hoff (m : Mcu) : (txPinsOff m).flash = m.flash := by
    unfold txPinsOff
    split_ifs <;> rfl
  have hrx (m : Mcu) : (rxReset m).flash = m.flash := by
    unfold rxReset rxDisable
    dsimp only
    split_ifs <;> exact hoff _
  have hinit (m : Mcu) : (bodyInit m).flash = m.flash := by
    unfold bodyInit
    dsimp only
    split_ifs <;> rfl
  have hreset (m : Mcu) : (bodyReset m).flash = m.flash := by
    unfold bodyReset pinsReset
    dsimp only
    split_ifs <;> rfl
  have hbufclr (m : Mcu) : (bodyBufclr m).flash = m.flash := by
    unfold bodyBufclr
    exact hrx m
  have hflag {flag : Byte} {step : Mcu → Mcu} (hs : ∀ m, (step m).flash = m.flash) (m : Mcu) :
      (onFlag flag step m).flash = m.flash := by
    unfold onFlag
    split_ifs
    · rfl
    · exact hs m
  unfold bodyFlags
  rw [hflag hbufclr, hflag hreset, hflag hinit]

/-- **`IG_DEV_EXECUTE`** brings the device to the page, with the flash as it was. -/
theorem mainRecv_execute (fuel : ℕ) (others : Byte → Mcu → Option Mcu) {m : Mcu}
    {queue : List (List Byte)} (hrun : ¬halted m)
    (hout : m.out = [0, 0, FROM_PC, IG_DEV_EXECUTE] :: queue) :
    ∃ m', mainRecv (withExecute registers fuel others) m = executeBody registers fuel m' ∧
      ¬halted m' ∧ m'.flash = m.flash ∧ m'.out = queue ∧ m'.sent = m.sent := by
  obtain ⟨m₁, hread, ⟨ram, hm₁⟩, hcode, -, hbelow⟩ :=
    @readControl_some m IG_DEV_EXECUTE [] queue (Nat.zero_le 4) hout
  have hquiet : Silent m₁ (bodyFlags (m₁.write tmp1 IG_DEV_EXECUTE)) :=
    (Silent.write _ (by decide) (by decide)).trans (bodyFlags_silent _)
  have hrun₁ : ¬halted m₁ := by
    unfold halted
    rw [hbelow loaderFlags (by decide) (by decide) (by decide)]
    exact hrun
  have htmp1 : (bodyFlags (m₁.write tmp1 IG_DEV_EXECUTE)).ram tmp1 = IG_DEV_EXECUTE := by
    rw [bodyFlags_ram _ (by decide) (by decide), Mcu.write_same]
  refine ⟨bodyFlags (m₁.write tmp1 IG_DEV_EXECUTE), ?_, ?_, ?_, ?_, ?_⟩
  · simp only [mainRecv, hread, Option.bind_eq_bind, Option.bind_some]
    change bodyMain _ IG_DEV_EXECUTE m₁ = _
    unfold bodyMain
    dsimp only
    rw [htmp1]
    rfl
  · exact fun hh => hrun₁ (hquiet.halted_iff.mp hh)
  · rw [bodyFlags_flash, hm₁]
    rfl
  · rw [hquiet.out, hm₁]
  · rw [hquiet.sent, hm₁]

end IguanaIR.Firmware
