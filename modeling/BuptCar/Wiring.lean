import BuptCar.Arduino.Wire
import BuptCar.Screen

/-!
# The program on the I2C bus

The display and the colour sensor hang on one bus. This is the program down to its calls of
`Wire.cpp`: those of the display's transactions, those of `color.h`, and `Task2` with both in the
order of the source. `Wired.task2` and `Wired.step` return what the sensor delivered, as the
`Prelude` and the `Inputs` that `task2` and `Car.step` are given.
-/

namespace BuptCar

def i2caddr : Nat := 0x3C
/-- `display(-1)` is the deprecated constructor; it sets neither clock, and `display` is static. -/
def wireClk : Nat := 0
def restoreClk : Nat := 0
def WIRE_MAX : Nat := min 256 I2C_BUFFER_LENGTH

def colorSensorAddr : Nat := 0x5a
def colorBufferAddr : BitVec 8 := 0x00

namespace I2c

variable (bus : I2c)

/-! ## `Adafruit_SSD1306.cpp` -/

def transmit (t : Display.Transmission) : Call TwoWire PUnit := do
  TwoWire.beginTransmission i2caddr
  t.forM fun byte => discard (TwoWire.write byte)
  discard (bus.endTransmission true)

/-- `TRANSACTION_START`, the transmissions, `TRANSACTION_END`. -/
def transaction (ts : List Display.Transmission) : Call TwoWire PUnit := do
  TwoWire.setClock wireClk
  ts.forM bus.transmit
  TwoWire.setClock restoreClk

/-! ## `color.h` -/

def setBrightness (brightness : BitVec 8) : Call TwoWire PUnit := do
  let brightness := clamp brightness 0 10
  let brightness := 10 - brightness
  let configCommand := 0x00 ||| brightness <<< 4
  TwoWire.beginTransmission colorSensorAddr
  discard (TwoWire.write 0x10)
  discard (TwoWire.write configCommand)
  discard (bus.endTransmission true)

def initColor : Call TwoWire PUnit := bus.setBrightness 0
def colorSensorOn : Call TwoWire PUnit := bus.setBrightness 10
def colorSensorOff : Call TwoWire PUnit := bus.setBrightness 0

/-- What it reads into `buffer`; the result `true` is not used. -/
def requestBuffer (deviceAddr : Nat) (bufferAddr : BitVec 8) (bufferSize : Nat) :
    Call TwoWire (List (BitVec 8)) := do
  TwoWire.beginTransmission deviceAddr
  discard (TwoWire.write bufferAddr)
  discard (bus.endTransmission false)
  discard (bus.requestFrom deviceAddr bufferSize)
  let buffer ← TwoWire.readBytes bufferSize
  -- the register's address once more
  discard (bus.endTransmission true)
  return buffer

/-- One read of the loop of `getColor`; without an answer the byte stays as it is. -/
def readRegister (rawBuff : RawBuff) (i : Fin 6) : Call TwoWire RawBuff := do
  match ← bus.requestBuffer colorSensorAddr (colorBufferAddr + BitVec.ofNat 8 i) 1 with
  | [] => return rawBuff
  | byte :: _ => return Function.update rawBuff i (UInt8.ofBitVec byte)

/-- `getColor` up to the assembly of the channels. -/
def getColor : Call TwoWire RawBuff :=
  (List.finRange 6).foldlM bus.readRegister fun _ => 0

end I2c

/-- The calls of an iteration that finds a platform, up to `colorSensorOn`. -/
def Car.arriveCalls (inp : Inputs) (c : Car) : List OledCall :=
  let (head, c, _) := c.headCalls inp
  head ++ c.locationCalls

/-- The car, its display and the bus. -/
structure Wired where
  car : Car
  oled : Oled
  wire : TwoWire

namespace Wired

def onWire {α : Type} (m : Call TwoWire α) : Call Wired α :=
  Call.focus wire (fun wire s => { s with wire := wire }) m

variable (font : Nat → BitVec 8) (bus : I2c)

def call (c : OledCall) : Call Wired PUnit := do
  match c with
  | .flush => onWire (bus.transaction ((← get).oled.display.display WIRE_MAX))
  | _ => pure ()
  modify fun s => { s with oled := s.oled.call font WIRE_MAX c }

def calls (cs : List OledCall) : Call Wired PUnit := cs.forM (call font bus)

/-- `initOled`, with the two flushes it does. -/
def initOled : Call Wired PUnit := do
  let d := (← get).oled.display
  onWire (bus.transaction (d.initSequence WIRE_MAX false))
  let oled := Oled.initOled font WIRE_MAX d
  oled.sent.forM fun ts => onWire (bus.transaction ts)
  modify fun s => { s with oled := oled }

/-- The display `d` before `initOled`. -/
def boot (frequency : Nat) (d : Display) (p : Prelude) : Wired :=
  ⟨Car.setup p.bestRecord, ⟨d, []⟩, TwoWire.started frequency⟩

/-- From power on to the endless loops; of `p`, the sensor's bytes are not used. -/
def task2 (p : Prelude) : Call Wired Prelude := do
  initOled font bus
  onWire bus.initColor
  calls font bus setupCalls
  onWire bus.colorSensorOn
  discard (onWire bus.getColor)
  let blankBuff ← onWire bus.getColor
  let p := { p with blankBuff := blankBuff }
  calls font bus (task2Calls p)
  modify fun s => { s with car := BuptCar.task2 p }
  return p

/-- One step of control; of `inp`, the sensor's bytes are not used at a platform. -/
def step (inp : Inputs) : Call Wired Inputs := do
  let c := (← get).car
  if c.control = .tracking ∧ c.status inp = .platform then
    calls font bus (c.arriveCalls inp)
    onWire bus.colorSensorOn
    calls font bus (OledCall.oledCountdown "Capturing".toList 1)
    let rawBuff ← onWire bus.getColor
    let inp := { inp with rawBuff := rawBuff }
    calls font bus (c.rgbCalls inp)
    onWire bus.colorSensorOff
    modify fun s => { s with car := c.step inp }
    return inp
  else
    calls font bus (c.oledCalls inp)
    modify fun s => { s with car := c.step inp }
    return inp

/-- `is.mapM step`. -/
def steps (is : List Inputs) : Call Wired (List Inputs) :=
  is.foldlM (fun inps inp => do return inps ++ [← step font bus inp]) []

/-- A run from power on. -/
def run (p : Prelude) (is : List Inputs) : Call Wired (Prelude × List Inputs) := do
  let p ← task2 font bus p
  return (p, ← steps font bus is)

end Wired

end BuptCar
