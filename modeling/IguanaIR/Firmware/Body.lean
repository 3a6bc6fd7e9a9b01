import IguanaIR.Firmware.Ir
import IguanaIR.Firmware.Pins

/-! # The body

`body.asm`: what the loader calls for a control packet that it does not handle itself.

`IG_DEV_EXECUTE` runs what is programmed into the last page of the flash, and the two repeater
functions stay in `ir_repeater` for as long as the host sends nothing: these are the parameter
`others`. -/

namespace IguanaIR.Firmware

variable (others : Byte → Mcu → Option Mcu)

/-! ### Initializing and resetting -/

/-- Enable output on all channels, and the pull-up of the receiver. -/
def bodyInit (m : Mcu) : Mcu :=
  let m :=
    if supportsChannels m then
      let m := m.setReg TX_BANK (m.reg TX_BANK ||| TX_MASK)
      let m := ((m.setReg .P12CR 1).setReg .P13CR 1).setReg .P14CR 1
      ((m.setReg .P15CR 1).setReg .P16CR 1).setReg .P17CR 1
    else
      -- only had 1 channel back then
      (m.setReg OLD_TX_BANK (m.reg OLD_TX_BANK &&& ~~~OLD_TX_MASK)).setReg .P06CR 1
  let m := m.setReg .P05CR 0x02
  m.write loaderFlags (m.ram loaderFlags &&& ~~~FLAG_BODY_INIT)

/-- The receiver starts in the off state, and the pins are cleared. -/
def bodyReset (m : Mcu) : Mcu :=
  let m := pinsReset { m with rxFlags := m.rxFlags &&& ~~~RX_ON_FLAG }
  m.write loaderFlags (m.ram loaderFlags &&& ~~~FLAG_BODY_RESET)

/-- The loader used the buffer. -/
def bodyBufclr (m : Mcu) : Mcu :=
  let m := rxReset m
  m.write loaderFlags (m.ram loaderFlags &&& ~~~FLAG_BODY_BUFCLR)

/-- A step that one of the loader's flags asks for. -/
def onFlag (flag : Byte) (step : Mcu → Mcu) (m : Mcu) : Mcu :=
  if m.ram loaderFlags &&& flag = 0 then m else step m

/-- The flags, in this order. -/
def bodyFlags (m : Mcu) : Mcu :=
  onFlag FLAG_BODY_BUFCLR bodyBufclr (onFlag FLAG_BODY_RESET bodyReset
    (onFlag FLAG_BODY_INIT bodyInit m))

/-! ### The handlers -/

/-- `bm_ack_then_ret`: the code that is in the packet now is the ack. -/
def ack (m : Mcu) : Option Mcu := writeControl CTL_BASE_SIZE m

/-- The features, and the cycle counts that are taken from the `ir.asm` code. -/
def getFeaturesBody (m : Mcu) : Option Mcu :=
  let m := (m.setCtl CCODE IG_DEV_GETFEATURES).setCtl CDATA m.features
  writeControl (CTL_BASE_SIZE + 2)
    (m.setCtl (CDATA + 1) (5 + 5 + 7 + 6 + 6 + 7 + (5 + 7) + (5 + 7) + 5))

def getBufSizeBody (m : Mcu) : Option Mcu :=
  writeControl (CTL_BASE_SIZE + 1)
    ((m.setCtl CCODE IG_DEV_GETBUFSIZE).setCtl CDATA BUFFER_SIZE)

def recvOnBody (m : Mcu) : Option Mcu := ack (rxReset { m with rxFlags := m.rxFlags ||| RX_ON_FLAG })

def recvOffBody (m : Mcu) : Option Mcu :=
  ack (rxReset { m with rxFlags := m.rxFlags &&& ~~~RX_ON_FLAG })

/-- Transmit, turn the receiver on if necessary, and save the length for resend. -/
def sendBuffer (m : Mcu) : Mcu :=
  let m := rxReset (transmitCode m)
  m.write tmp3 (m.ctl CDATA)

/-- A signal that does not fit is transmitted anyway, with an overflow in place of the ack. -/
def sendBody (m : Mcu) : Option Mcu := do
  let (m, ok) ← readBuffer (rxDisable m)
  let m := sendBuffer m
  if ok then ack m else writeControl (CTL_BASE_SIZE + 1) (m.setCtl CCODE IG_DEV_OVERSEND)

/-- Send the data that is in the buffer; most settings are in the next packet. -/
def resendBody (m : Mcu) : Option Mcu := do
  let (m, _) ← readControl m
  let m := (m.setCtl CCODE IG_DEV_RESEND).setCtl CDATA (m.ram tmp3)
  ack (sendBuffer (rxDisable m))

/-- Put the pins in the control packet and send it back. -/
def getPinsBody (m : Mcu) : Option Mcu := (getPins m).bind (writeControl (CTL_BASE_SIZE + 2))

def setPinsBody (m : Mcu) : Option Mcu := (setPins m).bind ack

/-- The receiver is off, since the burst timing would interfere. -/
def pinBurstBody (m : Mcu) : Option Mcu := do
  let (m, _) ← readBuffer (rxDisable m)
  let m ← pinBurst m
  ack m

/-- The handler of a control code; nothing happens for an unknown one. -/
def bodyHandler (code : Byte) (m : Mcu) : Option Mcu :=
  if code = IG_DEV_GETFEATURES then getFeaturesBody m
  else if code = IG_DEV_GETBUFSIZE then getBufSizeBody m
  else if code = IG_DEV_RECVON then recvOnBody m
  else if code = IG_DEV_RECVOFF then recvOffBody m
  else if code = IG_DEV_SEND then sendBody m
  else if code = IG_DEV_RESEND then resendBody m
  else if code = IG_DEV_GETPINCONFIG then getPinConfig m
  else if code = IG_DEV_SETPINCONFIG then setPinConfig m
  else if code = IG_DEV_GETPINS then getPinsBody m
  else if code = IG_DEV_SETPINS then setPinsBody m
  else if code = IG_DEV_PINBURST then pinBurstBody m
  else if code = IG_DEV_EXECUTE ∨ code = IG_DEV_REPEATER ∨ code = IG_DEV_NOUSB then others code m
  else some m

/-- The control code is saved while the flags are handled. -/
def bodyMain (code : Byte) (m : Mcu) : Option Mcu :=
  let m := bodyFlags (m.write tmp1 code)
  bodyHandler others (m.ram tmp1) m

end IguanaIR.Firmware
