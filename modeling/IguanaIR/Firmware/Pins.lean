import IguanaIR.Firmware.Pc

/-! # The pins

`pins.asm` of the body: the GPIO pins of devices that are not enclosed.  The pins of a device
with a slot are not those of one without, and the last channel of a slot is special.

The pin functions send the error of `has_gpios` themselves.  Interrupts are only turned off here
to keep the ports from changing in between. -/

namespace IguanaIR.Firmware

/-- No LEDs, no sockets: the pins are free. -/
def gpioFeatures (features : Byte) : Prop := features &&& (HAS_LEDS ||| HAS_BOTH ||| HAS_SOCKETS) = 0

instance (features : Byte) : Decidable (gpioFeatures features) := inferInstanceAs (Decidable (_ = _))

def slotDevice (m : Mcu) : Prop := m.features &&& SLOT_DEV ≠ 0

instance (m : Mcu) : Decidable (slotDevice m) := inferInstanceAs (Decidable (_ ≠ _))

/-- Does the device have GPIO pins?  If not, the host is told. -/
def hasGpios (m : Mcu) : Option (Mcu × Bool) :=
  if gpioFeatures m.features then some (m, true)
  else (writeControl CTL_BASE_SIZE (m.setCtl CCODE IG_DEV_INVALID_ARG)).map (·, false)

/-- Clear the data and the configuration of the pins that are used. -/
def pinsReset (m : Mcu) : Mcu :=
  if gpioFeatures m.features then
    let m := m.setReg .P0DATA (m.reg .P0DATA &&& 0xF0)
    let m := (((m.setReg .P00CR 0).setReg .P01CR 0).setReg .P02CR 0).setReg .P03CR 0
    if slotDevice m then
      let m := m.setReg .P0DATA (m.reg .P0DATA &&& 0x20)
      let m := m.setReg .P0DATA (m.reg .P0DATA ||| 0x80)
      ((m.setReg .P07CR 1).setReg .P06CR 0).setReg .P04CR 0
    else
      let m := m.setReg .P1DATA (m.reg .P1DATA &&& 0x87)
      (((m.setReg .P13CR 0).setReg .P14CR 0).setReg .P15CR 0).setReg .P16CR 0
  else m

/-! ### The pin configuration -/

/-- A pin control register goes to byte `i` of the packet. -/
def loadConfig (r : Reg) (i : Byte) (m : Mcu) : Mcu := m.setCtl i (m.reg r &&& PIN_CFG_MASK)

/-- Byte `i` of the packet sets a pin control register. -/
def storeConfig (r : Reg) (i : Byte) (m : Mcu) : Mcu := m.setReg r (m.ctl i &&& PIN_CFG_MASK)

/-- The configuration bytes of all the pins. -/
def loadConfigs (m : Mcu) : Mcu :=
  let m := loadConfig .P03CR 3 (loadConfig .P02CR 2 (loadConfig .P01CR 1 (loadConfig .P00CR 0 m)))
  if slotDevice m then
    -- skip the receiver
    loadConfig .P07CR 7 (loadConfig .P05CR 6 ((loadConfig .P04CR 4 m).setCtl 5 0))
  else
    loadConfig .P16CR 7 (loadConfig .P15CR 6 (loadConfig .P14CR 5 (loadConfig .P13CR 4 m)))

def storeConfigs (m : Mcu) : Mcu :=
  let m := storeConfig .P03CR 3 (storeConfig .P02CR 2 (storeConfig .P01CR 1
    (storeConfig .P00CR 0 m)))
  if slotDevice m then
    -- 5 is the receiver
    storeConfig .P07CR 7 (storeConfig .P06CR 6 (storeConfig .P04CR 4 m))
  else
    storeConfig .P16CR 7 (storeConfig .P15CR 6 (storeConfig .P14CR 5 (storeConfig .P13CR 4 m)))

/-- An ack, then the configuration in a second packet. -/
def getPinConfig (m : Mcu) : Option Mcu := do
  let (m, gpios) ← hasGpios m
  if gpios then
    let m ← writeControl CTL_BASE_SIZE m
    writePacket PACKET_SIZE controlPkt (loadConfigs m)
  else some m

/-- The new configuration is read, sent back as it came, and set. -/
def setPinConfig (m : Mcu) : Option Mcu := do
  let (m, gpios) ← hasGpios m
  if gpios then
    let m ← readPacket m
    let m ← writePacket PACKET_SIZE controlPkt m
    writeControl CTL_BASE_SIZE ((storeConfigs m).setCtl CCODE IG_DEV_SETPINCONFIG)
  else some m

/-! ### The state of the pins -/

/-- The state goes to the first two data bytes of the packet. -/
def loadPins (m : Mcu) : Mcu :=
  if slotDevice m then
    let m := m.setCtl CDATA (m.reg .P0DATA)
    (m.setCtl CDATA (m.ctl CDATA &&& ~~~0x20)).setCtl (CDATA + 1) 0
  else
    let m := (m.setCtl CDATA (m.reg .P0DATA)).setCtl (CDATA + 1) (m.reg .P1DATA)
    -- no need to move the first byte's 4 bits
    let m := m.setCtl (CDATA + 1) ((m.ctl (CDATA + 1)).sshiftRight 3)
    (m.setCtl CDATA (m.ctl CDATA &&& 0x0F)).setCtl (CDATA + 1) (m.ctl (CDATA + 1) &&& 0x0F)

def getPins (m : Mcu) : Option Mcu := do
  let (m, gpios) ← hasGpios m
  some (if gpios then loadPins m else m)

/-- The low nibbles of the two data bytes set the pins of the two ports. -/
def storePins (m : Mcu) : Mcu :=
  if slotDevice m then
    let m := m.setCtl CDATA (m.ctl CDATA &&& ~~~0x20)
    m.setReg .P0DATA (m.reg .P0DATA &&& 0x20 ||| m.ctl CDATA)
  else
    let m := m.setCtl CDATA (m.ctl CDATA &&& 0x0F)
    let m := m.setCtl (CDATA + 1) ((m.ctl (CDATA + 1) &&& 0x0F) <<< 3)
    let m := m.setReg .P0DATA (m.reg .P0DATA &&& 0xF0 ||| m.ctl CDATA)
    m.setReg .P1DATA (m.reg .P1DATA &&& 0x87 ||| m.ctl (CDATA + 1))

def setPins (m : Mcu) : Option Mcu := do
  let (m, gpios) ← hasGpios m
  some (if gpios then storePins m else m)

/-! ### Bursts -/

/-- The next byte of the buffer: the low nibble to the first port, the high one to the second.
The delay behind it changes nothing. -/
def burstByte (m : Mcu) : Option Mcu :=
  let a := m.ram (m.ram bufferPtr)
  let m := (m.write bufferPtr (m.ram bufferPtr + 1)).write tmp1 a
  setPins ((m.setCtl CDATA (a &&& 0x0F)).setCtl (CDATA + 1) ((a &&& 0xF0).sshiftRight 4))

/-- `pin_burst_loop`, for `n` more bytes. -/
def burstLoop : ℕ → Mcu → Option Mcu
  | 0, m => some m
  | n + 1, m => (burstByte m).bind (burstLoop n)

/-- Set the pins to a sequence of values.  The count is tested behind `has_gpios`, which leaves
it as not zero, so that none at all is taken for 256. -/
def pinBurst (m : Mcu) : Option Mcu := do
  let (m, gpios) ← hasGpios m
  if gpios then
    let m := m.write bufferPtr buffer
    burstLoop (if m.ctl CDATA = 0 then 256 else (m.ctl CDATA).toNat) m
  else some m

end IguanaIR.Firmware
