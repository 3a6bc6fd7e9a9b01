import IguanaIR.Firmware.Loader
import IguanaIR.Firmware.Receive
import Mathlib.Logic.Relation

/-! # Instruction by instruction

`get_byte`, `write_signal` and `rx_reset` with its callers, one instruction at a time, as the
timer interrupts find them.  A program counter names the next instruction of a routine, and
`instruction` executes it.  An interrupt handler runs as a whole, and only while the global
interrupt bit is set and its own interrupt is unmasked.  It may call `put_byte` any number of
times.

Registers A and X and the two flags are those of the main loop: a handler saves them.  The flags
are kept where a jump tests them.  `lcall write_packet` counts as one instruction, because what it
works on is no part of the receive buffer, and so does `call tx_pins_off`, because both interrupts
are masked there.

`put` and `got` are no part of the chip.  They collect the bytes that `put_byte` accepted and that
`get_byte` returned since `rx_reset` last cleared the size. -/

namespace IguanaIR.Firmware

/-! ### The program counter -/

inductive GetByte where
  | mvi | cmp | jnz | mov
  -- `gb_dec`
  | andF | dec | orF | ret
deriving DecidableEq, Repr

inductive RxReset where
  | andFlags | movReadPtr | movBufferPtr | movBufSize | callDisable
  -- `rx_disable`
  | andMsk1 | andMsk2 | callPinsOff | retDisable
  -- back in `rx_reset`
  | movA | andOn | jz | movTimerLow | movTimerHigh | movTcapInts | andClr1 | andClr2
  | orMsk1 | movFlags | andRepeater | jnz | orMsk2
  -- `rx_reset_done`
  | ret
deriving DecidableEq, Repr

inductive WriteSignal where
  | cmp | jc | movX | movTmp1
  -- `ws_ld_loop`
  | callGetByte | mviByte | decX | jnz
  | movA | mviLevel | movSize | movPacket | lcallPacket
  -- `ws_done`
  | ret
deriving DecidableEq, Repr

inductive Body where
  -- `recv_on_body`, `recv_off_body`
  | orOn | lcallOn | andOn | lcallOff
  -- `bm_ack_then_ret`
  | movAck | lcallAck | retAck
  -- `body_loop_body`
  | movA | andOverflow | jz | movCode | movX | lcallControl | lcallReset
  -- `no_overflow`
  | lcallSignal | ret
deriving DecidableEq, Repr

/-- The next instruction; `idle` is the main loop between two operations. -/
inductive Pc where
  | idle
  | body (p : Body)
  | writeSignal (p : WriteSignal)
  | getByte (p : GetByte)
  | rxReset (p : RxReset)
deriving DecidableEq, Repr

/-- Who called `rx_reset`: a request that turns the receiver on or off, or the body's loop. -/
inductive Caller where
  | request
  | overflow
deriving DecidableEq, Repr

/-- Where `rx_reset` returns to. -/
def Caller.next : Caller → Pc
  | request => .body .movAck
  | overflow => .body .lcallSignal

/-! ### The state -/

structure Chip where
  pc : Pc
  caller : Caller
  a : Byte
  x : Byte
  zero : Bool
  carry : Bool
  /-- The global interrupt bit. -/
  gie : Bool
  /-- Is the timer wrap interrupt unmasked?  For the timer capture this is `rxEnabled`. -/
  twrap : Bool
  mcu : Mcu
  put : List Byte
  got : List Byte

/-- `mvi [p], A` -/
def Mcu.mvi (m : Mcu) (p a : Byte) : Mcu := (m.write (m.ram p) a).write p (m.ram p + 1)

/-! ### The instructions -/

def getByte (c : Chip) : GetByte → Chip
  | .mvi => { c with
      pc := .getByte .cmp
      a := c.mcu.ram c.mcu.readPtr
      mcu := { c.mcu with readPtr := c.mcu.readPtr + 1 } }
  | .cmp => { c with
      pc := .getByte .jnz
      zero := decide (c.mcu.readPtr = buffer + BUFFER_SIZE) }
  | .jnz => { c with pc := .getByte (if c.zero then .mov else .andF) }
  | .mov => { c with pc := .getByte .andF, mcu := { c.mcu with readPtr := buffer } }
  | .andF => { c with pc := .getByte .dec, gie := false }
  | .dec => { c with pc := .getByte .orF, mcu := { c.mcu with bufSize := c.mcu.bufSize - 1 } }
  | .orF => { c with pc := .getByte .ret, gie := true }
  | .ret => { c with pc := .writeSignal .mviByte, got := c.got ++ [c.a] }

def rxResetAt (c : Chip) : RxReset → Chip
  | .andFlags => { c with
      pc := .rxReset .movReadPtr
      mcu := { c.mcu with rxFlags := c.mcu.rxFlags &&& ~~~RX_OVERFLOW_FLAG } }
  | .movReadPtr => { c with
      pc := .rxReset .movBufferPtr
      mcu := { c.mcu with readPtr := buffer } }
  | .movBufferPtr => { c with
      pc := .rxReset .movBufSize
      mcu := c.mcu.write bufferPtr buffer }
  | .movBufSize => { c with
      pc := .rxReset .callDisable
      mcu := { c.mcu with bufSize := 0 }
      put := []
      got := [] }
  | .callDisable => { c with pc := .rxReset .andMsk1 }
  | .andMsk1 => { c with pc := .rxReset .andMsk2, mcu := { c.mcu with rxEnabled := false } }
  | .andMsk2 => { c with pc := .rxReset .callPinsOff, twrap := false }
  | .callPinsOff => { c with pc := .rxReset .retDisable, mcu := txPinsOff c.mcu }
  | .retDisable => { c with pc := .rxReset .movA }
  | .movA => { c with pc := .rxReset .andOn, a := c.mcu.rxFlags }
  | .andOn => { c with
      pc := .rxReset .jz
      a := c.a &&& RX_ON_FLAG
      zero := decide (c.a &&& RX_ON_FLAG = 0) }
  | .jz => { c with pc := .rxReset (if c.zero then .ret else .movTimerLow) }
  -- the timer and the pending interrupts are not modelled
  | .movTimerLow => { c with pc := .rxReset .movTimerHigh }
  | .movTimerHigh => { c with pc := .rxReset .movTcapInts }
  | .movTcapInts => { c with pc := .rxReset .andClr1 }
  | .andClr1 => { c with pc := .rxReset .andClr2 }
  | .andClr2 => { c with pc := .rxReset .orMsk1 }
  | .orMsk1 => { c with pc := .rxReset .movFlags, mcu := { c.mcu with rxEnabled := true } }
  | .movFlags => { c with pc := .rxReset .andRepeater, a := c.mcu.rxFlags }
  | .andRepeater => { c with
      pc := .rxReset .jnz
      a := c.a &&& RX_REPEATER_FLAG
      zero := decide (c.a &&& RX_REPEATER_FLAG = 0) }
  | .jnz => { c with pc := .rxReset (if c.zero then .orMsk2 else .ret) }
  | .orMsk2 => { c with pc := .rxReset .ret, twrap := true }
  | .ret => { c with pc := c.caller.next }

/-- What the loader does about a halted endpoint, instead of sending a packet. -/
def softReset (m : Mcu) : Mcu :=
  let m := m.write loaderFlags ((m.ram loaderFlags &&& ~~~FLAG_HALTED) ||| FLAG_BODY_RESET)
  { m with sent := m.sent ++ [[]] }

/-- `lcall write_packet`: the size is in X, and the pointer in A. -/
def lcallWritePacket (next : Pc) (c : Chip) : Chip :=
  match writePacket c.x c.a c.mcu with
  | some m => { c with pc := next, mcu := m }
  | none => { c with pc := .idle, mcu := softReset ((c.mcu.write tmp1 c.x).write tmp2 c.a) }

/-- `lcall write_control` -/
def lcallWriteControl (next : Pc) (c : Chip) : Chip :=
  lcallWritePacket next { c with
    a := controlPkt
    mcu := ((c.mcu.setCtl 0 0).setCtl 1 0).setCtl 2 TO_PC }

def writeSignal (c : Chip) : WriteSignal → Chip
  | .cmp => { c with
      pc := .writeSignal .jc
      carry := decide (c.mcu.bufSize < PACKET_SIZE - 1) }
  | .jc => { c with pc := .writeSignal (if c.carry then .ret else .movX) }
  | .movX => { c with pc := .writeSignal .movTmp1, x := PACKET_SIZE - 1 }
  | .movTmp1 => { c with pc := .writeSignal .callGetByte, mcu := c.mcu.write tmp1 controlPkt }
  | .callGetByte => { c with pc := .getByte .mvi }
  | .mviByte => { c with pc := .writeSignal .decX, mcu := c.mcu.mvi tmp1 c.a }
  | .decX => { c with pc := .writeSignal .jnz, x := c.x - 1, zero := decide (c.x - 1 = 0) }
  | .jnz => { c with pc := .writeSignal (if c.zero then .movA else .callGetByte) }
  | .movA => { c with pc := .writeSignal .mviLevel, a := c.mcu.bufSize }
  | .mviLevel => { c with pc := .writeSignal .movSize, mcu := c.mcu.mvi tmp1 c.a }
  | .movSize => { c with pc := .writeSignal .movPacket, x := PACKET_SIZE }
  | .movPacket => { c with pc := .writeSignal .lcallPacket, a := controlPkt }
  | .lcallPacket => lcallWritePacket (.writeSignal .ret) c
  | .ret => { c with pc := .body .ret }

def body (c : Chip) : Body → Chip
  | .orOn => { c with
      pc := .body .lcallOn
      mcu := { c.mcu with rxFlags := c.mcu.rxFlags ||| RX_ON_FLAG } }
  | .lcallOn => { c with pc := .rxReset .andFlags, caller := .request }
  | .andOn => { c with
      pc := .body .lcallOff
      mcu := { c.mcu with rxFlags := c.mcu.rxFlags &&& ~~~RX_ON_FLAG } }
  | .lcallOff => { c with pc := .rxReset .andFlags, caller := .request }
  | .movAck => { c with pc := .body .lcallAck, x := CTL_BASE_SIZE }
  | .lcallAck => lcallWriteControl (.body .retAck) c
  | .retAck => { c with pc := .idle }
  | .movA => { c with pc := .body .andOverflow, a := c.mcu.rxFlags }
  | .andOverflow => { c with
      pc := .body .jz
      a := c.a &&& RX_OVERFLOW_FLAG
      zero := decide (c.a &&& RX_OVERFLOW_FLAG = 0) }
  | .jz => { c with pc := .body (if c.zero then .lcallSignal else .movCode) }
  | .movCode => { c with pc := .body .movX, mcu := c.mcu.setCtl CCODE IG_DEV_OVERRECV }
  | .movX => { c with pc := .body .lcallControl, x := CTL_BASE_SIZE }
  | .lcallControl => lcallWriteControl (.body .lcallReset) c
  | .lcallReset => { c with pc := .rxReset .andFlags, caller := .overflow }
  | .lcallSignal => { c with pc := .writeSignal .cmp }
  | .ret => { c with pc := .idle }

/-- One instruction; between operations there is none. -/
def instruction (c : Chip) : Option Chip :=
  match c.pc with
  | .idle => none
  | .body p => some (body c p)
  | .writeSignal p => some (writeSignal c p)
  | .getByte p => some (getByte c p)
  | .rxReset p => some (rxResetAt c p)

/-! ### Interrupts -/

inductive Interrupt where
  | tcap
  | twrap
deriving DecidableEq, Repr

def Chip.unmasked (c : Chip) : Interrupt → Bool
  | .tcap => c.mcu.rxEnabled
  | .twrap => c.twrap

/-- A handler that puts these bytes. -/
def putBytes : List Byte → Mcu → Mcu
  | [], m => m
  | b :: bytes, m => putBytes bytes (putByte b m)

/-- The bytes that there is room for. -/
def accepted : List Byte → Mcu → List Byte
  | [], _ => []
  | b :: bytes, m => (if m.bufSize = BUFFER_SIZE then [] else [b]) ++ accepted bytes (putByte b m)

/-! ### Events -/

/-- What the main loop calls. -/
inductive Operation where
  | recvOn
  | recvOff
  | loop
deriving DecidableEq, Repr

def Operation.entry : Operation → Pc
  | recvOn => .body .orOn
  | recvOff => .body .andOn
  | loop => .body .movA

inductive ChipEvent where
  | instruction
  | call (op : Operation)
  | interrupt (i : Interrupt) (bytes : List Byte)
deriving DecidableEq, Repr

def chipStep (c : Chip) : ChipEvent → Option (Chip × Unit)
  | .instruction => (instruction c).map (·, ())
  | .call op => if c.pc = .idle then some ({ c with pc := op.entry }, ()) else none
  | .interrupt i bytes =>
      if c.gie = true ∧ c.unmasked i = true then
        some ({ c with
          mcu := putBytes bytes c.mcu
          put := c.put ++ accepted bytes c.mcu }, ())
      else none

/-- The first `rx_reset` after power-up finds both interrupts masked. -/
structure Chip.Starts (c : Chip) : Prop where
  pc : c.pc = .rxReset .andFlags
  tcap : c.mcu.rxEnabled = false
  twrap : c.twrap = false

/-! ### Without interruption

Undisturbed, the instructions of `rx_reset` do what `rxReset` says, and the two handlers of the
timer put bytes as `putBytes` does. -/

/-- From `c` to `c'` by instructions alone. -/
def Undisturbed : Chip → Chip → Prop :=
  Relation.ReflTransGen (fun c c' => instruction c = some c')

theorem Undisturbed.next {c c₁ c' : Chip} (h : instruction c = some c₁) (h' : Undisturbed c₁ c') :
    Undisturbed c c' := Relation.ReflTransGen.head h h'

theorem Undisturbed.append {c c₁ c' : Chip} (h : Undisturbed c c₁) (h' : Undisturbed c₁ c') :
    Undisturbed c c' := Relation.ReflTransGen.trans h h'

theorem Undisturbed.last {c c' : Chip} (h : instruction c = some c') : Undisturbed c c' :=
  Relation.ReflTransGen.single h

/-- From `jz rx_reset_done` on. -/
theorem rxReset_enables {c : Chip} (hpc : c.pc = .rxReset .jz) :
    ∃ c', Undisturbed c c' ∧ c'.pc = c.caller.next ∧
      c'.mcu = (if c.zero = true then c.mcu else { c.mcu with rxEnabled := true }) ∧
      c'.put = c.put ∧ c'.got = c.got := by
  obtain ⟨pc, caller, a, x, zero, carry, gie, twrap, m, put, got⟩ := c
  obtain rfl : pc = .rxReset .jz := hpc
  cases zero with
  | true =>
      have hret : Undisturbed ⟨.rxReset .jz, caller, a, x, true, carry, gie, twrap, m, put, got⟩
          ⟨caller.next, caller, a, x, true, carry, gie, twrap, m, put, got⟩ :=
        .next rfl (.last rfl)
      exact ⟨_, hret, rfl, rfl, rfl, rfl⟩
  | false =>
      obtain ⟨z, hz⟩ : ∃ z, z = decide (m.rxFlags &&& RX_REPEATER_FLAG = 0) := ⟨_, rfl⟩
      obtain ⟨m', hm'⟩ : ∃ m' : Mcu, m' = { m with rxEnabled := true } := ⟨_, rfl⟩
      obtain ⟨a', ha'⟩ : ∃ a' : Byte, a' = m.rxFlags &&& RX_REPEATER_FLAG := ⟨_, rfl⟩
      have hjnz : Undisturbed ⟨.rxReset .jz, caller, a, x, false, carry, gie, twrap, m, put, got⟩
          ⟨.rxReset .jnz, caller, a', x, z, carry, gie, twrap, m', put, got⟩ := by
        rw [hz, hm', ha']
        refine .next rfl (.next rfl (.next rfl (.next rfl (.next rfl (.next rfl ?_)))))
        exact .next rfl (.next rfl (.last rfl))
      have hret : ∃ wrap, Undisturbed
          ⟨.rxReset .jnz, caller, a', x, z, carry, gie, twrap, m', put, got⟩
          ⟨caller.next, caller, a', x, z, carry, gie, wrap, m', put, got⟩ := by
        cases z with
        | true => exact ⟨true, .next rfl (.next rfl (.last rfl))⟩
        | false => exact ⟨twrap, .next rfl (.last rfl)⟩
      obtain ⟨wrap, hret⟩ := hret
      exact ⟨_, hjnz.append hret, rfl, hm', rfl, rfl⟩

/-- **`rx_reset`**, undisturbed, is `rxReset`. -/
theorem rxReset_undisturbed {c : Chip} (hpc : c.pc = .rxReset .andFlags) :
    ∃ c', Undisturbed c c' ∧ c'.pc = c.caller.next ∧ c'.mcu = rxReset c.mcu ∧
      c'.put = [] ∧ c'.got = [] := by
  obtain ⟨pc, caller, a, x, zero, carry, gie, twrap, m, put, got⟩ := c
  obtain rfl : pc = .rxReset .andFlags := hpc
  obtain ⟨m₁, hm₁⟩ : ∃ m₁ : Mcu, m₁ = { m with
    rxFlags := m.rxFlags &&& ~~~RX_OVERFLOW_FLAG, readPtr := buffer, bufSize := 0 } := ⟨_, rfl⟩
  obtain ⟨m₂, hm₂⟩ : ∃ m₂, m₂ = rxDisable (m₁.write bufferPtr buffer) := ⟨_, rfl⟩
  obtain ⟨c₁, hc₁⟩ : ∃ c₁ : Chip, c₁ = ⟨.rxReset .jz, caller, m₂.rxFlags &&& RX_ON_FLAG, x,
    decide (m₂.rxFlags &&& RX_ON_FLAG = 0), carry, gie, false, m₂, [], []⟩ := ⟨_, rfl⟩
  have hdisabled : Undisturbed
      ⟨.rxReset .andFlags, caller, a, x, zero, carry, gie, twrap, m, put, got⟩ c₁ := by
    rw [hc₁, hm₂, hm₁]
    refine .next rfl (.next rfl (.next rfl (.next rfl (.next rfl (.next rfl ?_)))))
    exact .next rfl (.next rfl (.next rfl (.next rfl (.last rfl))))
  have hpc₁ : c₁.pc = .rxReset .jz := by rw [hc₁]
  obtain ⟨c', hrest, hpc', hmcu, hput, hgot⟩ := rxReset_enables hpc₁
  subst hc₁
  refine ⟨c', hdisabled.append hrest, hpc', ?_, hput, hgot⟩
  rw [hmcu]
  unfold rxReset
  dsimp only
  rw [hm₁] at hm₂
  rw [hm₂]
  simp only [decide_eq_true_iff]

theorem putBytes_append : ∀ (bytes bytes' : List Byte) (m : Mcu),
    putBytes (bytes ++ bytes') m = putBytes bytes' (putBytes bytes m)
  | [], _, _ => rfl
  | b :: bytes, bytes', m => putBytes_append bytes bytes' (putByte b m)

theorem putBytes_replicate (b : Byte) : ∀ (n : ℕ) (m : Mcu),
    putBytes (List.replicate n b) m = (putByte b)^[n] m
  | 0, _ => rfl
  | n + 1, m => putBytes_replicate b n (putByte b m)

/-- `put_byte` reads and writes no other variables than those of the buffer. -/
theorem putByte_comm {f : Mcu → Mcu} (hram : ∀ m, (f m).ram = m.ram)
    (hsize : ∀ m, (f m).bufSize = m.bufSize) (hflags : ∀ m, (f m).rxFlags = m.rxFlags)
    (hf : ∀ (m : Mcu) (ram : Byte → Byte) (size flags : Byte),
      f { m with ram := ram, bufSize := size, rxFlags := flags } =
        { f m with ram := ram, bufSize := size, rxFlags := flags })
    (b : Byte) (m : Mcu) : putByte b (f m) = f (putByte b m) := by
  unfold putByte Mcu.write
  dsimp only
  rw [hram m, hsize m, hflags m]
  split_ifs <;> exact (hf m _ _ _).symm

/-- The variables of the interrupt are its own. -/
theorem putByte_setTimer (b high low pulse : Byte) (m : Mcu) :
    putByte b (m.setTimer high low pulse) = (putByte b m).setTimer high low pulse :=
  putByte_comm (f := fun m => m.setTimer high low pulse) (fun _ => rfl) (fun _ => rfl)
    (fun _ => rfl) (fun _ _ _ _ => rfl) b m

theorem putBytes_setTimer (high low pulse : Byte) : ∀ (bytes : List Byte) (m : Mcu),
    putBytes bytes (m.setTimer high low pulse) = (putBytes bytes m).setTimer high low pulse
  | [], _ => rfl
  | b :: bytes, m => by
      rw [putBytes, putByte_setTimer, putBytes_setTimer high low pulse bytes]
      rfl

theorem twrapInt_putBytes (m : Mcu) : twrapInt m = putBytes [0x80] m := rfl

/-- A capture puts its bytes, and leaves its own variables. -/
theorem tcapInt_putBytes {m : Mcu} (hq : ¬repeating m) (rising : Bool) (timer : BitVec 16) :
    ∃ high low pulse, tcapInt rising timer m =
      (putBytes (captureBytes rising timer) m).setTimer high low pulse := by
  obtain ⟨low, hlow⟩ : ∃ low, low =
    remainderByte (timer.extractLsb' 8 8) (timer.extractLsb' 0 8) (pulseBit rising) := ⟨_, rfl⟩
  obtain ⟨m₁, hm₁⟩ : ∃ m₁, m₁ =
    putBytes (List.replicate (fullBytes timer) (pulseBit rising ||| 0x7F)) m := ⟨_, rfl⟩
  obtain ⟨m₂, hm₂⟩ : ∃ m₂, m₂ = (putByte (pulseBit rising ||| 0x7F))^[fullBytes timer]
    (m.setTimer ((timer.extractLsb' 8 8).sshiftRight 5 &&& 0x07) low (pulseBit rising)) := ⟨_, rfl⟩
  have hload : tcapInt rising timer m = putByte m₂.rxLow (m₂.setTimer 0 m₂.rxLow m₂.rxPulse) := by
    have hneg : tcapInt rising timer m = loadValue
        (m.setTimer (timer.extractLsb' 8 8) (timer.extractLsb' 0 8) (pulseBit rising)) := if_neg hq
    rw [hneg, hm₂, hlow]
    rfl
  -- the full bytes leave the variables alone
  rw [← putBytes_replicate, putBytes_setTimer, ← hm₁] at hm₂
  refine ⟨0, low, pulseBit rising, ?_⟩
  rw [hload, hm₂, captureBytes, putBytes_append, ← hm₁, ← hlow]
  exact putByte_setTimer low 0 low (pulseBit rising) m₁

end IguanaIR.Firmware
