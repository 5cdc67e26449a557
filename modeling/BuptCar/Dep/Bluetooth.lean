import BuptCar.Arduino.BluetoothSerial
import BuptCar.Task2

/-!
# `dep/bluetooth.h`, and the Bluetooth loop on the driver

`BtMode` is the car in the Bluetooth loop of `Task2` with the driver it reads. A `pass` is one pass
of the loop; between two passes the stack delivers its events.
-/

namespace BuptCar

/-- `serialBT.connected()`: without a time-out the bit is read at once. -/
def btConnected (serialBT : BluetoothSerial UInt8) : Bool := serialBT.connectedBit

def btRecieve (serialBT : BluetoothSerial UInt8) : Int × BluetoothSerial UInt8 :=
  if serialBT.available ≠ 0 then
    let (message, serialBT) := serialBT.read
    (message.elim (-1) fun byte => (byte.toNat : Int), serialBT)
  else (-1, serialBT)

structure BtMode where
  serialBT : BluetoothSerial UInt8
  car : Car

namespace BtMode

def pass (s : BtMode) : BtMode :=
  let car := if !s.car.connected && btConnected s.serialBT then { s.car with connected := true }
    else s.car
  if car.connected then
    let (command, serialBT) := btRecieve s.serialBT
    { serialBT := serialBT
      car := { car with chassis := car.chassis.parseCommands command }.delay 20 }
  else { s with car := car }

inductive Input
  | pass
  | dataInd (data : List UInt8)
  | srvOpen (handle : Nat)
  | close
  deriving DecidableEq

def step (s : BtMode) : Input → BtMode
  | .pass => s.pass
  | .dataInd data => { s with serialBT := s.serialBT.dataInd data }
  | .srvOpen handle => { s with serialBT := s.serialBT.srvOpen handle }
  | .close => { s with serialBT := s.serialBT.close }

end BtMode

/-- The Bluetooth loop, entered whatever the calibration gave. -/
def btMachine (p : Prelude) : Machine BtMode BtMode.Input where
  init := ⟨.boot, { (Car.calibrate p).1 with control := .btMode }⟩
  step := BtMode.step

theorem task2_of_blocked {p : Prelude} (h : (Car.calibrate p).2 = true) :
    (btMachine p).init.car = task2 p := by
  unfold btMachine task2
  generalize Car.calibrate p = r at h ⊢
  obtain ⟨c, b⟩ := r
  cases h
  rfl

end BuptCar
