import BuptCar.Lib.Call

/-!
# `Wire.cpp`: the I2C bus

A bus master behind `begin`, with its calls from one task at a time. The lock is a mutex: a task
that takes it twice waits for ever, giving it back twice does nothing. The functions of the core
that move the bytes are not part of `Wire.cpp`: an `I2c` says what they answer, by all transfers of
the bus up to the one they are called for.
-/

namespace BuptCar

def I2C_BUFFER_LENGTH : Nat := 128

inductive EspErr
  | ok
  | fail
  | timeout
  | other

/-- What goes over the bus, and the clock last asked for. -/
inductive Transfer
  | write (address : Nat) (bytes : List (BitVec 8)) (frequency : Nat)
  | writeRead (address : Nat) (bytes : List (BitVec 8)) (size frequency : Nat)
  | read (address size frequency : Nat)
  deriving DecidableEq

/-- How an `i2cWrite` ends, and the bytes `i2cRead` and `i2cWriteReadNonStop` get; of these at most
`size` are taken. -/
structure I2c where
  err : List Transfer → EspErr
  bytes : List Transfer → List (BitVec 8)

/-- `txBuffer` has `txLength` bytes, `rxBuffer` those from `rxIndex` up to `rxLength`; `frequency`
is the clock last asked for, `transfers` what went over the bus. -/
structure TwoWire where
  bufferSize : Nat
  rxBuffer : List (BitVec 8)
  txBuffer : List (BitVec 8)
  txAddress : Nat
  nonStop : Bool
  locked : Bool
  frequency : Nat
  transfers : List Transfer

namespace TwoWire

/-- The bus after `begin`, at the frequency `i2cInit` chooses. -/
def started (frequency : Nat) : TwoWire where
  bufferSize := I2C_BUFFER_LENGTH
  rxBuffer := []
  txBuffer := []
  txAddress := 0
  nonStop := false
  locked := false
  frequency := frequency
  transfers := []

def takeLock : Call TwoWire PUnit := do
  if (← get).locked then Call.wait
  else modify fun w => { w with locked := true }

def giveLock : Call TwoWire PUnit := modify fun w => { w with locked := false }

def setClock (frequency : Nat) : Call TwoWire PUnit := do
  takeLock
  modify fun w => { w with frequency := frequency }
  giveLock

def beginTransmission (address : Nat) : Call TwoWire PUnit := do
  if (← get).nonStop then giveLock
  takeLock
  modify fun w => { w with nonStop := false, txAddress := address, txBuffer := [] }

def write (data : BitVec 8) : Call TwoWire Nat := do
  let w ← get
  if w.txBuffer.length ≥ w.bufferSize then return 0
  set { w with txBuffer := w.txBuffer ++ [data] }
  return 1

/-- `read`; `none` is `-1`. -/
def read : Call TwoWire (Option (BitVec 8)) := do
  let w ← get
  match w.rxBuffer with
  | [] => return none
  | value :: rxBuffer =>
    set { w with rxBuffer := rxBuffer }
    return some value

/-- `Stream::readBytes` of the core: it ends at the first byte that does not come in time. -/
def readBytes : Nat → Call TwoWire (List (BitVec 8))
  | 0 => return []
  | length + 1 => do
    match ← read with
    | none => return []
    | some value => return value :: (← readBytes length)

end TwoWire

namespace I2c

variable (bus : I2c)

def endTransmission (sendStop : Bool) : Call TwoWire Nat := do
  let w ← get
  if sendStop then
    let transfers := w.transfers ++ [.write w.txAddress w.txBuffer w.frequency]
    set { w with transfers := transfers }
    TwoWire.giveLock
    match bus.err transfers with
    | .ok => return 0
    | .fail => return 2
    | .timeout => return 5
    | .other => return 4
  else
    set { w with nonStop := true }
    return 0

def requestFrom (address size : Nat) : Call TwoWire Nat := do
  if (← get).nonStop then
    let w ← get
    if address ≠ w.txAddress then return 0
    let transfers := w.transfers ++ [.writeRead address w.txBuffer size w.frequency]
    set { w with
      nonStop := false
      rxBuffer := (bus.bytes transfers).take size
      transfers := transfers }
  else
    TwoWire.takeLock
    let w ← get
    let transfers := w.transfers ++ [.read address size w.frequency]
    set { w with rxBuffer := (bus.bytes transfers).take size, transfers := transfers }
  TwoWire.giveLock
  return (← get).rxBuffer.length

end I2c

end BuptCar
