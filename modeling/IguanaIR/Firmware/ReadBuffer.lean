import IguanaIR.Firmware.Instructions
import IguanaIR.Firmware.Transfer

/-! # Reading signal data, instruction by instruction

`read_buffer_body_real` with its counters, its pointer and its calls of the USB library.  Any
number of checks of the endpoint may find nothing before a packet is there (`polls`), and a packet
stays in the data registers while the firmware copies it.  `enabled` is no part of the chip: it
collects the packets behind which the endpoint was enabled again.

The flags are kept where a jump tests them, and the calls of the library count as one instruction
each. -/

namespace IguanaIR.Firmware

/-- The endpoint of the data. -/
def OUT : Byte := 2

def EVENT_PENDING : Byte := 1
def NO_EVENT_PENDING : Byte := 0

/-- The next instruction of `read_buffer_body_real`. -/
inductive ReadPc where
  | jzDone | movPtr | movCount | orFlags
  -- `rb_frag`
  | movFlags | andHalted | jnzReset | movOut | lcallState | cmpPending | jnzFrag
  | movOutCount | lcallCount | movLength | movOutEnable | lcallEnable | movX
  -- `rb_loop`
  | cmpPtr | jzOverflow | movByte | mvi | decLeft | jzRead | decLength | jzFrag | incX | jmpLoop
  -- `rb_done`
  | movOk | retOk
  -- `rb_overflow`
  | movSize | movZero | retOverflow
  -- in `main_prog`
  | softReset
deriving DecidableEq, Repr

structure ReadChip where
  pc : ReadPc
  a : Byte
  x : Byte
  zero : Bool
  reg : Byte → Byte
  /-- For each packet, how many checks find nothing before it is there. -/
  polls : List ℕ
  mcu : Mcu
  enabled : List (List Byte)

/-- Where the data registers of the endpoint start, and what its mode register reads as. -/
structure Endpoint where
  data : Byte
  mode : Byte

namespace ReadChip

/-! ### The USB library -/

/-- A packet in the data registers. -/
def loadData (data : Byte) (p : List Byte) (reg : Byte → Byte) : Byte → Byte :=
  fun r => p.getD (r - data).toNat (reg r)

/-- `USB_bGetEPState` -/
def getEPState (e : Endpoint) (c : ReadChip) : ReadChip :=
  match c.mcu.out, c.polls with
  | [], _ => { c with a := NO_EVENT_PENDING, x := c.a }
  | _ :: _, (n + 1) :: polls => { c with a := NO_EVENT_PENDING, x := c.a, polls := n :: polls }
  | p :: _, _ => { c with a := EVENT_PENDING, x := c.a, reg := loadData e.data p c.reg }

/-- `USB_bGetEPCount`: the count register includes the two byte checksum. -/
def getEPCount (c : ReadChip) : ReadChip :=
  { c with
    a := (BitVec.ofNat 8 ((c.mcu.out.headD []).length + 2) &&& 0x1F) - 2
    x := c.a }

/-- `USB_EnableEP`: the packet may be followed by the next one. -/
def enableEP (e : Endpoint) (c : ReadChip) : ReadChip :=
  { c with
    a := e.mode
    x := c.a
    polls := c.polls.tail
    mcu := { c.mcu with out := c.mcu.out.tail }
    enabled := c.enabled ++ c.mcu.out.take 1 }

/-! ### The instructions -/

/-- One instruction; there is none behind a return and behind the jump to `soft_reset`. -/
def next (e : Endpoint) (c : ReadChip) : Option ReadChip :=
  match c.pc with
  | .jzDone => some { c with pc := if c.zero then .movOk else .movPtr }
  | .movPtr => some { c with pc := .movCount, mcu := c.mcu.write bufferPtr buffer }
  | .movCount => some { c with pc := .orFlags, mcu := c.mcu.write tmp1 c.a }
  | .orFlags => some { c with
      pc := .movFlags
      mcu := c.mcu.write loaderFlags (c.mcu.ram loaderFlags ||| FLAG_BODY_BUFCLR) }
  -- check for halt condition
  | .movFlags => some { c with pc := .andHalted, a := c.mcu.ram loaderFlags }
  | .andHalted => some { c with
      pc := .jnzReset
      a := c.a &&& FLAG_HALTED
      zero := decide (c.a &&& FLAG_HALTED = 0) }
  | .jnzReset => some { c with pc := if c.zero then .movOut else .softReset }
  | .movOut => some { c with pc := .lcallState, a := OUT }
  | .lcallState => some { getEPState e c with pc := .cmpPending }
  | .cmpPending => some { c with pc := .jnzFrag, zero := decide (c.a = EVENT_PENDING) }
  | .jnzFrag => some { c with pc := if c.zero then .movOutCount else .movFlags }
  | .movOutCount => some { c with pc := .lcallCount, a := OUT }
  | .lcallCount => some { getEPCount c with pc := .movLength }
  | .movLength => some { c with pc := .movOutEnable, mcu := c.mcu.write tmp2 c.a }
  | .movOutEnable => some { c with pc := .lcallEnable, a := OUT }
  | .lcallEnable => some { enableEP e c with pc := .movX }
  | .movX => some { c with pc := .cmpPtr, x := e.data }
  -- copy the bytes of this packet
  | .cmpPtr => some { c with
      pc := .jzOverflow
      zero := decide (c.mcu.ram bufferPtr = buffer + BUFFER_SIZE) }
  | .jzOverflow => some { c with pc := if c.zero then .movSize else .movByte }
  | .movByte => some { c with pc := .mvi, a := c.reg c.x }
  | .mvi => some { c with pc := .decLeft, mcu := c.mcu.mvi bufferPtr c.a }
  | .decLeft => some { c with
      pc := .jzRead
      mcu := c.mcu.write tmp1 (c.mcu.ram tmp1 - 1)
      zero := decide (c.mcu.ram tmp1 - 1 = 0) }
  | .jzRead => some { c with pc := if c.zero then .movOk else .decLength }
  | .decLength => some { c with
      pc := .jzFrag
      mcu := c.mcu.write tmp2 (c.mcu.ram tmp2 - 1)
      zero := decide (c.mcu.ram tmp2 - 1 = 0) }
  | .jzFrag => some { c with pc := if c.zero then .movFlags else .incX }
  | .incX => some { c with pc := .jmpLoop, x := c.x + 1 }
  | .jmpLoop => some { c with pc := .cmpPtr }
  | .movOk => some { c with pc := .retOk, a := 1 }
  | .movSize => some { c with pc := .movZero, mcu := c.mcu.setCtl CDATA BUFFER_SIZE }
  | .movZero => some { c with pc := .retOverflow, a := 0 }
  | .retOk => none
  | .retOverflow => none
  | .softReset => none

/-- `read_buffer_body_real` is called with `n` in A. -/
structure Starts (c : ReadChip) (n : Byte) : Prop where
  pc : c.pc = .jzDone
  a : c.a = n
  zero : c.zero = decide (n = 0)
  enabled : c.enabled = []
  run : ¬halted c.mcu

variable (e : Endpoint)

/-- From `c` to `c'` by instructions. -/
def Runs : ReadChip → ReadChip → Prop := Relation.ReflTransGen (fun c c' => c.next e = some c')

namespace Runs

variable {e} {c c₁ c' : ReadChip}

theorem step (h : c.next e = some c₁) (h' : Runs e c₁ c') : Runs e c c' :=
  Relation.ReflTransGen.head h h'

theorem append (h : Runs e c c₁) (h' : Runs e c₁ c') : Runs e c c' :=
  Relation.ReflTransGen.trans h h'

theorem last (h : c.next e = some c') : Runs e c c' := Relation.ReflTransGen.single h

end Runs

/-! ### Waiting for a packet -/

variable {e}

/-- The check for the halt condition, in a loader that is not halted. -/
theorem runs_check {m : Mcu} (hrun : ¬halted m) (a x : Byte) (zero : Bool) (reg : Byte → Byte)
    (polls : List ℕ) (enabled : List (List Byte)) :
    Runs e ⟨.movFlags, a, x, zero, reg, polls, m, enabled⟩
      ⟨.lcallState, OUT, x, true, reg, polls, m, enabled⟩ := by
  have hzero : decide (m.ram loaderFlags &&& FLAG_HALTED = 0) = true :=
    decide_eq_true (Classical.not_not.mp hrun)
  have hflags : Runs e ⟨.movFlags, a, x, zero, reg, polls, m, enabled⟩
      ⟨.jnzReset, m.ram loaderFlags &&& FLAG_HALTED, x, true, reg, polls, m, enabled⟩ := by
    rw [← hzero]
    exact .step rfl (.last rfl)
  exact hflags.append (.step rfl (.last rfl))

/-- The check for the halt condition, in a halted one. -/
theorem runs_reset {m : Mcu} (hhalted : halted m) (a x : Byte) (zero : Bool) (reg : Byte → Byte)
    (polls : List ℕ) (enabled : List (List Byte)) :
    Runs e ⟨.movFlags, a, x, zero, reg, polls, m, enabled⟩
      ⟨.softReset, m.ram loaderFlags &&& FLAG_HALTED, x, false, reg, polls, m, enabled⟩ := by
  have hzero : decide (m.ram loaderFlags &&& FLAG_HALTED = 0) = false := decide_eq_false hhalted
  have hflags : Runs e ⟨.movFlags, a, x, zero, reg, polls, m, enabled⟩
      ⟨.jnzReset, m.ram loaderFlags &&& FLAG_HALTED, x, false, reg, polls, m, enabled⟩ := by
    rw [← hzero]
    exact .step rfl (.last rfl)
  exact hflags.append (.last rfl)

/-- A check that finds the packet. -/
theorem runs_pending {m : Mcu} {p : List Byte} {out : List (List Byte)} (hrun : ¬halted m)
    (hout : m.out = p :: out) {polls : List ℕ} (hpolls : ∀ n rest, polls ≠ (n + 1) :: rest)
    (a x : Byte) (zero : Bool) (reg : Byte → Byte) (enabled : List (List Byte)) :
    Runs e ⟨.movFlags, a, x, zero, reg, polls, m, enabled⟩
      ⟨.movOutCount, EVENT_PENDING, OUT, true, loadData e.data p reg, polls, m, enabled⟩ := by
  refine (runs_check hrun a x zero reg polls enabled).append ?_
  have hstate : next e ⟨.lcallState, OUT, x, true, reg, polls, m, enabled⟩ =
      some ⟨.cmpPending, EVENT_PENDING, OUT, true, loadData e.data p reg, polls, m, enabled⟩ := by
    simp only [next, getEPState, hout]
  exact .step hstate (.step rfl (.last rfl))

/-- The wait ends when the packet is there, however many checks find nothing. -/
theorem runs_wait {m : Mcu} {p : List Byte} {out : List (List Byte)} (hrun : ¬halted m)
    (hout : m.out = p :: out) (reg : Byte → Byte) (enabled : List (List Byte)) :
    ∀ (polls : List ℕ) (a x : Byte) (zero : Bool), ∃ polls',
      Runs e ⟨.movFlags, a, x, zero, reg, polls, m, enabled⟩
        ⟨.movOutCount, EVENT_PENDING, OUT, true, loadData e.data p reg, polls', m, enabled⟩
  | [], a, x, zero => ⟨[], runs_pending hrun hout (by simp) a x zero reg enabled⟩
  | 0 :: rest, a, x, zero => ⟨0 :: rest, runs_pending hrun hout (by simp) a x zero reg enabled⟩
  | (n + 1) :: rest, a, x, zero => by
      obtain ⟨polls', hwait⟩ := runs_wait hrun hout reg enabled (n :: rest) NO_EVENT_PENDING OUT false
      refine ⟨polls', ((runs_check hrun a x zero reg _ enabled).append ?_).append hwait⟩
      have hstate : next e ⟨.lcallState, OUT, x, true, reg, (n + 1) :: rest, m, enabled⟩ =
          some ⟨.cmpPending, NO_EVENT_PENDING, OUT, true, reg, n :: rest, m, enabled⟩ := by
        simp only [next, getEPState, hout]
      exact .step hstate (.step rfl (.last rfl))

/-- The bytes are in the registers from `x` on. -/
def InRegs (reg : Byte → Byte) (x : Byte) (p : List Byte) : Prop :=
  ∀ i, ∀ h : i < p.length, reg (x + BitVec.ofNat 8 i) = p[i]

theorem loadData_inRegs (data : Byte) {p : List Byte} (hlen : p.length ≤ 8) (reg : Byte → Byte) :
    InRegs (loadData data p reg) data p := by
  intro i hi
  have hindex : (data + BitVec.ofNat 8 i - data).toNat = i := by
    rw [BitVec.add_comm, BitVec.add_sub_cancel, BitVec.toNat_ofNat, Nat.mod_eq_of_lt (by omega)]
  rw [loadData, hindex, List.getD_eq_getElem _ _ hi]

theorem getEPCount_length {k : ℕ} (h : k ≤ 8) :
    (BitVec.ofNat 8 (k + 2) &&& 0x1F) - 2 = BitVec.ofNat 8 k := by
  have hall : ∀ k ≤ 8, (BitVec.ofNat 8 (k + 2) &&& 0x1F) - 2 = BitVec.ofNat 8 k := by decide
  exact hall k h

/-- **The next packet**: its length is noted, and the endpoint is enabled for the one behind it. -/
theorem runs_frag {m : Mcu} {p : List Byte} {out : List (List Byte)} (hrun : ¬halted m)
    (hout : m.out = p :: out) (hlen : p.length ≤ 8) (a x : Byte) (zero : Bool) (reg : Byte → Byte)
    (polls : List ℕ) (enabled : List (List Byte)) :
    ∃ reg' polls', InRegs reg' e.data p ∧
      Runs e ⟨.movFlags, a, x, zero, reg, polls, m, enabled⟩
        ⟨.cmpPtr, e.mode, e.data, true, reg', polls',
          ({ m with out := out }).write tmp2 (BitVec.ofNat 8 p.length), enabled ++ [p]⟩ := by
  obtain ⟨polls', hwait⟩ := runs_wait hrun hout reg enabled polls a x zero
  refine ⟨_, polls'.tail, loadData_inRegs e.data hlen reg, hwait.append ?_⟩
  have hcount : next e ⟨.lcallCount, OUT, OUT, true, loadData e.data p reg, polls', m, enabled⟩ =
      some ⟨.movLength, BitVec.ofNat 8 p.length, OUT, true, loadData e.data p reg, polls', m,
        enabled⟩ := by
    simp only [next, getEPCount, hout, List.headD_cons, getEPCount_length hlen]
  have henable (b : Byte) : next e ⟨.lcallEnable, OUT, OUT, true, loadData e.data p reg, polls',
      m.write tmp2 b, enabled⟩ = some ⟨.movX, e.mode, OUT, true, loadData e.data p reg, polls'.tail,
        ({ m with out := out }).write tmp2 b, enabled ++ [p]⟩ := by
    have htail : (m.write tmp2 b).out = p :: out := hout
    simp only [next, enableEP, htail, List.tail_cons, List.take_succ_cons, List.take_zero]
    rfl
  exact .step rfl (.step hcount (.step rfl (.step rfl (.step (henable _) (.last rfl)))))

/-! ### Copying a packet -/

/-- Where the end of a packet leads to. -/
def Ended (c : ReadChip) (m : Mcu) : FragEnd → Prop
  | .done => c.pc = .retOk ∧ c.a = 1 ∧ c.mcu = m
  | .overflow => c.pc = .retOverflow ∧ c.a = 0 ∧ c.mcu = m.setCtl CDATA BUFFER_SIZE
  | .fragment => c.pc = .movFlags ∧ c.mcu = m

/-- `mvi [buffer_ptr], A` and `dec [tmp1]` -/
theorem storeByte_eq {m : Mcu} (h : bufferPtr ≠ m.ram bufferPtr) (b : Byte) :
    storeByte m b = (m.mvi bufferPtr b).write tmp1 ((m.mvi bufferPtr b).ram tmp1 - 1) := by
  have hptr : (m.write (m.ram bufferPtr) b).ram bufferPtr = m.ram bufferPtr := Mcu.write_ne _ _ h
  unfold storeByte Mcu.mvi
  dsimp only
  rw [hptr]

theorem storeByte_tmp2 {m : Mcu} (h : tmp2 ≠ m.ram bufferPtr) (b : Byte) :
    (storeByte m b).ram tmp2 = m.ram tmp2 := by
  unfold storeByte
  rw [Mcu.write_ne _ _ (by decide), Mcu.write_ne _ _ (by decide), Mcu.write_ne _ _ h]

theorem InRegs.tail {reg : Byte → Byte} {x b : Byte} {rest : List Byte}
    (h : InRegs reg x (b :: rest)) : InRegs reg (x + 1) rest := by
  intro i hi
  have hnext := h (i + 1) (Nat.succ_lt_succ hi)
  rwa [add_ofNat_succ, List.getElem_cons_succ] at hnext

/-- The instructions for one byte that fits. -/
theorem runs_byte {m : Mcu} {w left : ℕ} (h : Reading m w left) (hroom : w < 150)
    (a x : Byte) (zero : Bool) (reg : Byte → Byte) (polls : List ℕ) (enabled : List (List Byte)) :
    Runs e ⟨.cmpPtr, a, x, zero, reg, polls, m, enabled⟩
      ⟨.jzRead, reg x, x, decide ((storeByte m (reg x)).ram tmp1 = 0), reg, polls,
        storeByte m (reg x), enabled⟩ := by
  have hend : decide (m.ram bufferPtr = buffer + BUFFER_SIZE) = false := by
    rw [decide_eq_false_iff_not, h.end_iff]
    omega
  have hne : bufferPtr ≠ m.ram bufferPtr := by
    rw [h.ptr]
    exact (bufferByte_ne hroom (by decide)).symm
  have hcount : (storeByte m (reg x)).ram tmp1 = (m.mvi bufferPtr (reg x)).ram tmp1 - 1 := by
    rw [storeByte_eq hne, Mcu.write_same]
  have hcmp : Runs e ⟨.cmpPtr, a, x, zero, reg, polls, m, enabled⟩
      ⟨.jzOverflow, a, x, false, reg, polls, m, enabled⟩ := by
    rw [← hend]
    exact .last rfl
  rw [hcount, storeByte_eq hne]
  exact hcmp.append (.step rfl (.step rfl (.step rfl (.last rfl))))

/-- More data, but the buffer is full. -/
theorem runs_full {m : Mcu} {left : ℕ} (h : Reading m 150 left) (a x : Byte) (zero : Bool)
    (reg : Byte → Byte) (polls : List ℕ) (enabled : List (List Byte)) :
    Runs e ⟨.cmpPtr, a, x, zero, reg, polls, m, enabled⟩
      ⟨.retOverflow, 0, x, true, reg, polls, m.setCtl CDATA BUFFER_SIZE, enabled⟩ := by
  have hcmp : Runs e ⟨.cmpPtr, a, x, zero, reg, polls, m, enabled⟩
      ⟨.jzOverflow, a, x, true, reg, polls, m, enabled⟩ := by
    rw [← decide_eq_true (h.end_iff.mpr rfl)]
    exact .last rfl
  exact hcmp.append (.step rfl (.step rfl (.last rfl)))

/-- One less byte to copy in this packet. -/
theorem runs_decLength {m : Mcu} {k : ℕ} (hlength : m.ram tmp2 = BitVec.ofNat 8 (k + 1))
    (hle : k ≤ 255) (a x : Byte) (reg : Byte → Byte) (polls : List ℕ)
    (enabled : List (List Byte)) :
    Runs e ⟨.jzRead, a, x, false, reg, polls, m, enabled⟩
      ⟨.jzFrag, a, x, decide (k = 0), reg, polls, m.write tmp2 (BitVec.ofNat 8 k), enabled⟩ := by
  have hdec : m.ram tmp2 - 1 = BitVec.ofNat 8 k := by
    rw [hlength]
    exact ofNat_pred (Nat.succ_pos k)
  have hiff : m.ram tmp2 - 1 = 0 ↔ k = 0 := by rw [hdec, ofNat_eq_zero_iff hle]
  rw [← decide_eq_decide.mpr hiff, ← hdec]
  exact .step rfl (.last rfl)

/-- **The loop over a packet** does what `readLoopRb` says. -/
theorem runs_loop (p : List Byte) {m : Mcu} {got : List Byte} {left : ℕ} (a x : Byte)
    (zero : Bool) (reg : Byte → Byte) (polls : List ℕ) (enabled : List (List Byte))
    (h : Reading m got.length left) (hgot : Stored m buffer got) (hne : p ≠ [])
    (hlen : p.length ≤ 8) (hlength : m.ram tmp2 = BitVec.ofNat 8 p.length) (hreg : InRegs reg x p) :
    ∃ c', Runs e ⟨.cmpPtr, a, x, zero, reg, polls, m, enabled⟩ c' ∧ c'.enabled = enabled ∧
      Ended c' (readLoopRb m p).1 (readLoopRb m p).2 := by
  induction p generalizing m got left a x zero with
  | nil => exact absurd rfl hne
  | cons b rest ih =>
      rw [List.length_cons] at hlen hlength
      by_cases hfull : got.length = 150
      · rw [readLoopRb, if_pos (h.end_iff.mpr hfull)]
        rw [hfull] at h
        exact ⟨_, runs_full h a x zero reg polls enabled, rfl, rfl, rfl, rfl⟩
      · have hlt : got.length < 150 := Nat.lt_of_le_of_ne h.room hfull
        have hbyte : reg x = b := by
          have hzero := hreg 0 (Nat.zero_lt_succ _)
          rwa [BitVec.add_zero] at hzero
        have hcopy := runs_byte (e := e) h hlt a x zero reg polls enabled
        obtain ⟨-, -, hcount, -⟩ := storeByte_spec h hlt hgot b
        have htmp2 : (storeByte m b).ram tmp2 = BitVec.ofNat 8 (rest.length + 1) := by
          rw [storeByte_tmp2 (by rw [h.ptr]; exact (bufferByte_ne hlt (by decide)).symm), hlength]
        have hpred : (storeByte m b).ram tmp2 - 1 = BitVec.ofNat 8 rest.length := by
          rw [htmp2]
          exact ofNat_pred (Nat.succ_pos rest.length)
        rw [hbyte] at hcopy
        rw [readLoopRb, if_neg (fun hc => hfull (h.end_iff.mp hc))]
        dsimp only
        by_cases hdone : (storeByte m b).ram tmp1 = 0
        · rw [decide_eq_true hdone] at hcopy
          rw [if_pos hdone]
          exact ⟨⟨.retOk, 1, x, true, reg, polls, storeByte m b, enabled⟩,
            hcopy.append (.step rfl (.last rfl)), rfl, rfl, rfl, rfl⟩
        · rw [decide_eq_false hdone] at hcopy
          rw [if_neg hdone, hpred]
          have hdec := runs_decLength (e := e) htmp2 (by omega) b x reg polls enabled
          by_cases hnil : rest = []
          · subst hnil
            exact ⟨⟨.movFlags, b, x, true, reg, polls, _, enabled⟩,
              (hcopy.append hdec).append (.last rfl), rfl, rfl, rfl⟩
          · rw [decide_eq_false (mt List.length_eq_zero_iff.mp hnil)] at hdec
            have hleft : left ≠ 1 := by
              rintro rfl
              exact hdone hcount
            obtain ⟨hreading, hstored⟩ := h.byte hlt hgot hleft b (BitVec.ofNat 8 rest.length)
            obtain ⟨c', hrest, henabled, hended⟩ := ih b (x + 1) false hreading hstored hnil
              (by omega) (Mcu.write_same ..) hreg.tail
            exact ⟨c', ((hcopy.append hdec).append (.step rfl (.step rfl (.last rfl)))).append hrest,
              henabled, hended⟩

/-! ### Packet after packet -/

/-- From the call to the first packet. -/
theorem runs_start (a x : Byte) (reg : Byte → Byte) (polls : List ℕ) (m : Mcu)
    (enabled : List (List Byte)) :
    Runs e ⟨.jzDone, a, x, false, reg, polls, m, enabled⟩
      ⟨.movFlags, a, x, false, reg, polls, startReading a m, enabled⟩ :=
  .step rfl (.step rfl (.step rfl (.last rfl)))

/-- A halted loader takes no packet and does not return. -/
theorem runs_halted {m : Mcu} (h : halted m) (a x : Byte) (reg : Byte → Byte) (polls : List ℕ)
    (enabled : List (List Byte)) : ∃ flags,
    Runs e ⟨.jzDone, a, x, false, reg, polls, m, enabled⟩
      ⟨.softReset, flags, x, false, reg, polls, startReading a m, enabled⟩ := by
  have hreset := runs_reset (e := e) ((startReading_halted a m).mpr h) a x false reg polls enabled
  exact ⟨_, (runs_start a x reg polls m enabled).append hreset⟩

/-- A return with the result in A. -/
def Returned (c : ReadChip) (m : Mcu) (ok : Bool) : Prop :=
  c.pc = (if ok then .retOk else .retOverflow) ∧ c.a = (if ok then 1 else 0) ∧ c.mcu = m

theorem runs_fragments (out : List (List Byte)) {m m' : Mcu} {got : List Byte} {left : ℕ}
    {ok : Bool} (a x : Byte) (zero : Bool) (reg : Byte → Byte) (polls : List ℕ)
    (enabled : List (List Byte)) (h : Reading m got.length left) (hgot : Stored m buffer got)
    (hrun : ¬halted m) (hout : m.out = out) (hlen : ∀ p ∈ out, p.length ≤ 8)
    (hread : readFragments m out = some (m', ok)) :
    ∃ c', Runs e ⟨.movFlags, a, x, zero, reg, polls, m, enabled⟩ c' ∧ c'.Returned m' ok ∧
      c'.enabled ++ c'.mcu.out = enabled ++ out := by
  induction out generalizing m got left a x zero reg polls enabled with
  | nil => cases hread
  | cons p out ih =>
      have hshort := hlen p (List.mem_cons_self ..)
      obtain ⟨reg', polls', hreg, hfrag⟩ := runs_frag (e := e) hrun hout hshort a x zero reg polls
        enabled
      have hnext := h.next out (BitVec.ofNat 8 p.length)
      have hstart := hgot.next h.room out (BitVec.ofNat 8 p.length)
      have hrun₁ := (KeepsOutside.write_tmp2 { m with out := out }
        (BitVec.ofNat 8 p.length)).keepsRest.halted_iff.mp
      obtain ⟨m₁, hm₁⟩ : ∃ m₁, m₁ = ({ m with out := out }).write tmp2 (BitVec.ofNat 8 p.length) :=
        ⟨_, rfl⟩
      rw [← hm₁] at hnext hstart hrun₁
      have hlength : m₁.ram tmp2 = BitVec.ofNat 8 p.length := by rw [hm₁, Mcu.write_same]
      have hout₁ : m₁.out = out := by rw [hm₁]; rfl
      rw [← hm₁] at hfrag
      rw [readFragments, ← hm₁] at hread
      split_ifs at hread with hstop
      have hne : p ≠ [] := fun hnil => hstop (.inr hnil)
      obtain ⟨c₁, hloop, henabled, hended⟩ := runs_loop (e := e) p e.mode e.data true reg' polls'
        (enabled ++ [p]) hnext hstart hne hshort hlength hreg
      obtain ⟨m₂, hcopy, hcopied⟩ := readLoopRb_copies p hnext hstart
      have hout₂ : m₂.out = out := hcopied.keeps.out.trans hout₁
      rw [hcopy] at hread hended
      dsimp only at hread hended
      cases hend : fragEnd got.length left p.length with
      | done =>
          rw [hend] at hread hended
          obtain ⟨rfl, rfl⟩ := Prod.mk.inj (Option.some.inj hread)
          obtain ⟨hpc, ha, hmcu⟩ := hended
          refine ⟨c₁, hfrag.append hloop, ⟨hpc, ha, hmcu⟩, ?_⟩
          rw [henabled, hmcu, hout₂, List.append_assoc, List.singleton_append]
      | overflow =>
          rw [hend] at hread hended
          obtain ⟨rfl, rfl⟩ := Prod.mk.inj (Option.some.inj hread)
          obtain ⟨hpc, ha, hmcu⟩ := hended
          refine ⟨c₁, hfrag.append hloop, ⟨hpc, ha, hmcu⟩, ?_⟩
          have hout₃ : (m₂.setCtl CDATA BUFFER_SIZE).out = out := hout₂
          rw [henabled, hmcu, hout₃, List.append_assoc, List.singleton_append]
      | fragment =>
          rw [hend] at hread hended
          have hlt : p.length < needed got.length left := by
            unfold fragEnd at hend
            split_ifs at hend with hlt
            exact hlt
          obtain ⟨hreading, hstored⟩ := hcopied.whole hlt
          obtain ⟨pc, a₁, x₁, zero₁, reg₁, polls₁, m₃, enabled₁⟩ := c₁
          obtain ⟨rfl, rfl⟩ : pc = .movFlags ∧ m₃ = m₂ := hended
          obtain rfl : enabled₁ = enabled ++ [p] := henabled
          obtain ⟨c', hrest, hreturned, hall⟩ := ih a₁ x₁ zero₁ reg₁ polls₁
            (enabled ++ [p]) hreading hstored
            (fun hh => hrun (hrun₁ (hcopied.keeps.keepsRest.halted_iff.mp hh))) hout₂
            (fun q hq => hlen q (List.mem_cons_of_mem _ hq)) hread
          refine ⟨c', (hfrag.append hloop).append hrest, hreturned, ?_⟩
          rw [hall, List.append_assoc, List.singleton_append]

/-- **The instructions** do what `readBufferReal` says. -/
theorem readBufferReal_runs {n : Byte} {c : ReadChip} (h : c.Starts n)
    (hlen : ∀ p ∈ c.mcu.out, p.length ≤ 8) {m' : Mcu} {ok : Bool}
    (hread : readBufferReal n c.mcu = some (m', ok)) :
    ∃ c', Runs e c c' ∧ c'.Returned m' ok ∧ c'.enabled ++ c'.mcu.out = c.mcu.out := by
  obtain ⟨pc, a, x, zero, reg, polls, m, enabled⟩ := c
  obtain ⟨hpc, ha, hzero, henabled, hrun⟩ := h
  dsimp only at hpc ha hzero henabled hrun hlen hread
  subst hpc ha hzero henabled
  by_cases hn : a = 0
  · -- no data to read
    rw [readBufferReal, if_pos hn] at hread
    obtain ⟨rfl, rfl⟩ := Prod.mk.inj (Option.some.inj hread)
    rw [decide_eq_true hn]
    exact ⟨⟨.retOk, 1, x, true, reg, polls, m, []⟩, .step rfl (.last rfl), ⟨rfl, rfl, rfl⟩, rfl⟩
  · rw [readBufferReal_eq hn] at hread
    rw [decide_eq_false hn]
    have hrun' : ¬halted (startReading a m) := fun hh => hrun ((startReading_halted a m).mp hh)
    obtain ⟨c', hrest, hreturned, hall⟩ := runs_fragments (e := e) m.out a x false reg
      polls [] (startReading_reading hn m) (.nil _ _) hrun' rfl hlen hread
    exact ⟨c', (runs_start a x reg polls m []).append hrest, hreturned, hall⟩

/-! ### The whole function -/

/-- What a call with `n` in A leaves: the registers, the memory and the endpoint. -/
structure ReadsBuffer (n : ℕ) (c c' : ReadChip) : Prop where
  pc : c'.pc = if n ≤ 150 then .retOk else .retOverflow
  result : c'.a = if n ≤ 150 then 1 else 0
  stored : Stored c'.mcu buffer (c.mcu.out.flatten.take (min n 150))
  /-- Outside of the buffer only the variables of the function are written. -/
  outside : ∀ x, x < buffer ∨ buffer + BUFFER_SIZE ≤ x →
    x ∉ [bufferPtr, loaderFlags, tmp1, tmp2] → n ≤ 150 ∨ x ≠ controlPkt + CDATA →
      c'.mcu.ram x = c.mcu.ram x
  flags : c'.mcu.ram loaderFlags = c.mcu.ram loaderFlags ||| FLAG_BODY_BUFCLR
  count : 150 < n → c'.mcu.ctl CDATA = 150
  rest : ∃ ram out, c'.mcu = { c.mcu with ram := ram, out := out }
  /-- The endpoint was enabled behind the packets up to the one with byte number `min n 151`. -/
  enabled : ∃ init last queue, c.mcu.out = init ++ last :: queue ∧ c'.enabled = init ++ [last] ∧
    init.flatten.length < min n 151 ∧ min n 151 ≤ init.flatten.length + last.length

/-- Record the number of bytes read, when they are not all that were asked for. -/
def recordSize (n : ℕ) (m : Mcu) : Mcu := if n ≤ 150 then m else m.setCtl CDATA BUFFER_SIZE

theorem recordSize_ram {n : ℕ} {x : Byte} (h : n ≤ 150 ∨ x ≠ controlPkt + CDATA) (m : Mcu) :
    (recordSize n m).ram x = m.ram x := by
  unfold recordSize
  split_ifs with hroom
  · rfl
  · exact Mcu.write_ne _ _ (h.resolve_left hroom)

theorem recordSize_rest (n : ℕ) (m : Mcu) : ∃ ram, recordSize n m = { m with ram := ram } := by
  unfold recordSize
  split_ifs
  · exact ⟨m.ram, rfl⟩
  · exact ⟨_, rfl⟩

/-- What `readBufferReal` leaves and returns, for packets that hold the bytes. -/
theorem readBufferReal_record {n : ℕ} (hpos : 1 ≤ n) (hle : n ≤ 255) {m : Mcu}
    {queue : List (List Byte)} (hrun : ¬halted m) (hne : ∀ p ∈ m.out, p ≠ [])
    (hout : Chunks.dropCover (min n 151) m.out = some queue) :
    ∃ m', readBufferReal (BitVec.ofNat 8 n) m = some (recordSize n m', decide (n ≤ 150)) ∧
      BufferRead (BitVec.ofNat 8 n) m m' queue ∧
      Stored m' buffer (m.out.flatten.take (min n 150)) := by
  have hn : BitVec.ofNat 8 n ≠ 0 := by
    rw [Ne, ofNat_eq_zero_iff hle]
    omega
  have htoNat : (BitVec.ofNat 8 n).toNat = n := by
    rw [BitVec.toNat_ofNat, Nat.mod_eq_of_lt (by omega)]
  have hqueue : Chunks.dropCover (consumed (BitVec.ofNat 8 n).toNat) m.out = some queue := by
    rw [htoNat]
    exact hout
  obtain ⟨m', hread, hfilled⟩ := readBufferReal_copies hn hrun hne hqueue
  have hstored := hfilled.stored
  rw [htoNat] at hread hstored
  refine ⟨m', ?_, hfilled, hstored⟩
  rw [hread, recordSize]
  split_ifs with hroom
  · rw [decide_eq_true hroom]
  · rw [decide_eq_false hroom]

/-- **`read_buffer_body_real`**, for all packets that hold the bytes it is asked for. -/
theorem readBuffer_runs (e : Endpoint) {n : ℕ} (hpos : 1 ≤ n) (hle : n ≤ 255) {c : ReadChip}
    (hstart : c.Starts (BitVec.ofNat 8 n)) (hlen : ∀ p ∈ c.mcu.out, 1 ≤ p.length ∧ p.length ≤ 8)
    (htotal : n ≤ c.mcu.out.flatten.length) :
    ∃ c', Runs e c c' ∧ c'.next e = none ∧ ReadsBuffer n c c' := by
  have hne : ∀ p ∈ c.mcu.out, p ≠ [] := fun p hp => List.length_pos_iff.mp (hlen p hp).1
  obtain ⟨init, last, queue, hsplit, hbefore, hholds⟩ :=
    Chunks.exists_holds (n := min n 151) (by omega) c.mcu.out (by omega)
  have hqueue : Chunks.dropCover (min n 151) c.mcu.out = some queue := by
    rw [hsplit]
    exact Chunks.dropCover_append queue hbefore hholds
  obtain ⟨m', hread, hfilled, hstored⟩ := readBufferReal_record hpos hle hstart.run hne hqueue
  obtain ⟨ram, hrest⟩ := hfilled.rest
  obtain ⟨c', hruns, ⟨hpc, ha, hmcu⟩, hall⟩ := readBufferReal_runs (e := e) hstart
    (fun p hp => (hlen p hp).2) hread
  simp only [decide_eq_true_iff] at hpc ha
  obtain ⟨ram', hrecorded⟩ := recordSize_rest n m'
  have hout : c'.mcu.out = queue := by rw [hmcu, hrecorded, hrest]
  have hend : c'.next e = none := by
    unfold next
    rw [hpc]
    split_ifs <;> rfl
  have hhigh {x : Byte} (hx : x < controlPkt + CDATA) (m : Mcu) :
      (recordSize n m).ram x = m.ram x := recordSize_ram (.inr (BitVec.ne_of_lt hx)) m
  refine ⟨c', hruns, hend, hpc, ha, ?_, ?_, ?_, ?_, ?_, ?_⟩
  · rw [hmcu]
    apply hstored.congr
    intro i hi
    rw [List.length_take] at hi
    exact hhigh (BitVec.lt_trans (bufferByte_lt (by omega)) (by decide)) m'
  · intro x hx hvar hcount
    rw [hmcu, recordSize_ram hcount]
    exact hfilled.kept hx hvar
  · rw [hmcu, hhigh (by decide)]
    exact hfilled.flags
  · intro hlt
    rw [hmcu, recordSize, if_neg (Nat.not_le.mpr hlt)]
    exact Mcu.write_same _ _ _
  · exact ⟨ram', queue, by rw [hmcu, hrecorded, hrest]⟩
  · refine ⟨init, last, queue, hsplit, ?_, hbefore, hholds⟩
    rw [hout, hsplit, List.append_cons] at hall
    exact List.append_cancel_right hall

/-- One byte more than there is room for, in packets of eight. -/
def crowded : ReadChip where
  pc := .jzDone
  a := 151
  x := 0
  zero := false
  reg := fun _ => 0
  polls := [2, 0, 1]
  mcu := { Mcu.cleared 0 with out := List.replicate 19 (List.replicate 8 7) }
  enabled := []

theorem crowded_starts : crowded.Starts 151 := ⟨rfl, rfl, by decide, rfl, by decide⟩

theorem readBuffer_runs_crowded : ∃ c', Runs ⟨0, 0⟩ crowded c' ∧ c'.next ⟨0, 0⟩ = none ∧
    ReadsBuffer 151 crowded c' :=
  readBuffer_runs ⟨0, 0⟩ (by decide) (by decide) crowded_starts
    (fun p hp => by rw [List.eq_of_mem_replicate hp]; decide) (by simp [crowded])

/-- The same with the halt condition. -/
def haltedChip : ReadChip := { crowded with mcu := crowded.mcu.write loaderFlags FLAG_HALTED }

/-- The variables of the function and the flags of the loader are outside of the buffer, and the
function does not return when the loader is halted. -/
theorem flags_written :
    (∃ c', Runs ⟨0, 0⟩ crowded c' ∧ c'.next ⟨0, 0⟩ = none ∧
      ¬∀ x, x < buffer ∨ buffer + BUFFER_SIZE ≤ x → c'.mcu.ram x = crowded.mcu.ram x) ∧
    ∃ c', Runs ⟨0, 0⟩ haltedChip c' ∧ c'.pc = .softReset ∧ c'.next ⟨0, 0⟩ = none ∧
      c'.enabled = [] := by
  have hout : Chunks.dropCover 151 crowded.mcu.out = some [] := by decide
  obtain ⟨m', hread, hfilled⟩ := readBufferReal_copies (n := 151) (m := crowded.mcu) (by decide)
    (by decide) (fun p hp => by rw [List.eq_of_mem_replicate hp]; decide) hout
  obtain ⟨c', hruns, ⟨hpc, -, hmcu⟩, -⟩ := readBufferReal_runs (e := ⟨0, 0⟩) crowded_starts
    (fun p hp => by rw [List.eq_of_mem_replicate hp]; decide) hread
  obtain ⟨flags, hreset⟩ := runs_halted (e := ⟨0, 0⟩) (m := haltedChip.mcu) (by decide) 151 0
    (fun _ => 0) [2, 0, 1] []
  refine ⟨⟨c', hruns, by simp [next, hpc], fun hsame => ?_⟩, _, hreset, rfl, rfl, rfl⟩
  have hflags := hsame loaderFlags (.inr (by decide))
  rw [hmcu] at hflags
  exact absurd (hflags.symm.trans hfilled.flags) (by decide)

end ReadChip

end IguanaIR.Firmware
