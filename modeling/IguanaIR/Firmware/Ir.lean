import IguanaIR.Firmware.Mcu
import Mathlib.Logic.Function.Iterate
import Mathlib.Tactic.SplitIfs

/-! # The infrared side

`ir.asm` of the body: the transmit loop with its rule that puts a dropped pulse back in, the
capture interrupt that turns timer values into bytes, and the receive buffer.

`ir` collects what `send_loop` does, one entry for each call: `txState`, which is 0 while the
pins are left alone, and the number of half carrier periods.  The timers themselves are not
modelled: the value that a capture finds comes with the interrupt. -/

namespace IguanaIR.Firmware

/-! ### Transmitting -/

/-- Does this device support channels? -/
def supportsChannels (m : Mcu) : Prop :=
  m.features &&& (HAS_LEDS ||| HAS_BOTH ||| HAS_SOCKETS ||| SLOT_DEV) ≠ 0

instance (m : Mcu) : Decidable (supportsChannels m) := inferInstanceAs (Decidable (_ ≠ _))

def repeating (m : Mcu) : Prop := m.rxFlags &&& RX_REPEATER_FLAG ≠ 0

instance (m : Mcu) : Decidable (repeating m) := inferInstanceAs (Decidable (_ ≠ _))

/-- Make sure the tx pins are off: old ones are active high, new ones active low. -/
def txPinsOff (m : Mcu) : Mcu :=
  if supportsChannels m then m.setReg TX_BANK (m.reg TX_BANK ||| TX_MASK)
  else m.setReg OLD_TX_BANK (m.reg OLD_TX_BANK &&& ~~~OLD_TX_MASK)

@[simp] theorem txPinsOff_ram (m : Mcu) : (txPinsOff m).ram = m.ram := by
  unfold txPinsOff
  split_ifs <;> rfl

@[simp] theorem txPinsOff_txState (m : Mcu) : (txPinsOff m).txState = m.txState := by
  unfold txPinsOff
  split_ifs <;> rfl

@[simp] theorem txPinsOff_txPins (m : Mcu) : (txPinsOff m).txPins = m.txPins := by
  unfold txPinsOff
  split_ifs <;> rfl

@[simp] theorem txPinsOff_rxFlags (m : Mcu) : (txPinsOff m).rxFlags = m.rxFlags := by
  unfold txPinsOff
  split_ifs <;> rfl

@[simp] theorem txPinsOff_ir (m : Mcu) : (txPinsOff m).ir = m.ir := by
  unfold txPinsOff
  split_ifs <;> rfl

/-- The default 38kHz frequency when sent 0, 0. -/
def txDefaultCarrier (m : Mcu) : Mcu :=
  if m.ctl (CDATA + 2) = 0 ∧ m.ctl (CDATA + 3) = 0 then
    (m.setCtl (CDATA + 2) 0x06).setCtl (CDATA + 3) 0x31
  else m

/-- The bank and the pins to use.  If the byte was 0 then transmit on all channels. -/
def readSendSettings (m : Mcu) : Mcu :=
  if supportsChannels m then
    let pins := m.ctl (CDATA + 1) &&& TX_MASK
    txDefaultCarrier ((m.setCtl (CDATA + 1) pins).setTx TX_BANK (if pins = 0 then TX_MASK else pins))
  else m.setTx OLD_TX_BANK OLD_TX_MASK

/-- One round of `sl_pulse`. -/
def slPulse (m : Mcu) : Mcu :=
  (m.setReg m.txBank (m.reg m.txBank ^^^ m.txState)).write tmp2 (m.ram tmp2 - 1)

/-- The settings of `send_loop` for the byte `a`: a pulse turns the pins on and is remembered, a
space turns them off. -/
def sendState (a : Byte) (m : Mcu) : Mcu :=
  let m := (m.write tmp3 a).write tmp2 ((a &&& 0x7F) <<< 1)
  if repeating m then m
  else if a &&& 0x80 = 0 then (m.setTxState m.txPins).write lastPulse a
  else m.setTxState 0

def sendLoop (a : Byte) (m : Mcu) : Mcu :=
  let m := sendState a m
  let n := (m.ram tmp2).toNat
  txPinsOff (slPulse^[n] { m with ir := m.ir ++ [(m.txState, n)] })

/-- Is the last pulse put in before this byte?  Last was space, not one to be continued, and
next is space. -/
def insertsPulse (a : Byte) (m : Mcu) : Prop :=
  a &&& 0x80 ≠ 0 ∧ m.ram tmp3 &&& 0x7F ≠ 0x7F ∧ m.txState = 0

instance (a : Byte) (m : Mcu) : Decidable (insertsPulse a m) :=
  inferInstanceAs (Decidable (_ ∧ _ ∧ _))

/-- `tx_loop`: the next byte of the buffer. -/
def txByte (m : Mcu) : Mcu :=
  let a := m.ram (m.ram bufferPtr)
  let m := (m.write bufferPtr (m.ram bufferPtr + 1)).write tmp4 a
  let m := if insertsPulse a m then sendLoop (m.ram lastPulse) m else m
  sendLoop (m.ram tmp4) m

/-- `tx_end_pulse`, after `n` more bytes. -/
def txLoop : ℕ → Mcu → Mcu
  | 0, m => m
  | n + 1, m => let m := txByte m; txLoop n (m.write tmp1 (m.ram tmp1 - 1))

/-- The settings, the start of the buffer, and the number of bytes to transmit. -/
def txStart (m : Mcu) : Mcu :=
  let m := ((readSendSettings m).write bufferPtr buffer).setTxState 0
  m.write tmp1 (m.ctl CDATA)

/-- Transmit the code in the buffer.  For no bytes at all the loop is entered at its end, where
the count wraps around. -/
def transmitCode (m : Mcu) : Mcu :=
  let m := txStart m
  if m.ram tmp1 = 0 then txLoop 255 (m.write tmp1 (m.ram tmp1 - 1))
  else txLoop (m.ram tmp1).toNat m

/-! ### Receiving -/

/-- Load a byte into the circular buffer, or set the overflow flag. -/
def putByte (a : Byte) (m : Mcu) : Mcu :=
  if m.bufSize = BUFFER_SIZE then { m with rxFlags := m.rxFlags ||| RX_OVERFLOW_FLAG }
  else
    let m := m.write (m.ram bufferPtr) a
    let m := { m.write bufferPtr (m.ram bufferPtr + 1) with bufSize := m.bufSize + 1 }
    if m.ram bufferPtr = buffer + BUFFER_SIZE then m.write bufferPtr buffer else m

/-- The byte for what is left of a timer value after its full bytes. -/
def remainderByte (rxHigh rxLow rxPulse : Byte) : Byte :=
  let low := (rxLow.sshiftRight 6 &&& 0x03) ||| rxHigh <<< 2
  let low := if low = 0 then low else low - 1
  low &&& 0x7F ||| rxPulse

/-- The variables of the capture interrupt. -/
def Mcu.setTimer (m : Mcu) (high low pulse : Byte) : Mcu :=
  { m with rxHigh := high, rxLow := low, rxPulse := pulse }

/-- Load a received value into the buffer: a full byte for every 128 ticks, then the rest. -/
def loadValue (m : Mcu) : Mcu :=
  let low := remainderByte m.rxHigh m.rxLow m.rxPulse
  let high := m.rxHigh.sshiftRight 5 &&& 0x07
  let m := (putByte (m.rxPulse ||| 0x7F))^[high.toNat] (m.setTimer high low m.rxPulse)
  putByte m.rxLow (m.setTimer 0 m.rxLow m.rxPulse)

/-- The capture interrupt: the timer's value, and whether it comes with a rising edge, which
ends a pulse. -/
def tcapInt (rising : Bool) (timer : BitVec 16) (m : Mcu) : Mcu :=
  let m := m.setTimer (timer.extractLsb' 8 8) (timer.extractLsb' 0 8) (if rising then 0x00 else 0x80)
  if repeating m then { m with txState := if rising then 0 else m.txPins }
  else loadValue m

/-- The timer wrapped around: a full-length space. -/
def twrapInt (m : Mcu) : Mcu := putByte 0x80 m

/-- Disable the receiver and make sure the transmit LEDs are off. -/
def rxDisable (m : Mcu) : Mcu := txPinsOff { m with rxEnabled := false }

/-- Clear the receive buffer and enable the receiver if it should be on. -/
def rxReset (m : Mcu) : Mcu :=
  let m := { m with rxFlags := m.rxFlags &&& ~~~RX_OVERFLOW_FLAG, readPtr := buffer, bufSize := 0 }
  let m := rxDisable (m.write bufferPtr buffer)
  if m.rxFlags &&& RX_ON_FLAG = 0 then m else { m with rxEnabled := true }

end IguanaIR.Firmware
