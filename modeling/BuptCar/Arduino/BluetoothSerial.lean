import BuptCar.Lib.Fifo
import BuptCar.Lib.Machine

/-!
# `BluetoothSerial.cpp`: the serial port over Bluetooth

The driver's queues, its transmit task `_spp_tx_task` and the events of the Bluetooth stack that
the car's side meets (it never connects by itself). `α` is the type of a byte. The task blocks in
`xQueueReceive` and in `_spp_send_buffer` only; between these calls the program and the callbacks
run, so an `Input` is what happens next: the program calls `write` or `read`, the stack delivers an
event, or one of the two blocking calls returns. A call that cannot return now does nothing.

Time-outs, congestion and the acknowledgement are in how `_spp_send_buffer` ends (`Outcome`).
-/

namespace BuptCar

def RX_QUEUE_SIZE : Nat := 512
def TX_QUEUE_SIZE : Nat := 32
def SPP_TX_MAX : Nat := 330

/-- How `_spp_send_buffer` ends where there is a client: congested for too long, `esp_spp_write`
fails, the write is not acknowledged in time, or it is. -/
inductive Outcome
  | congested
  | writeFailed
  | ackFailed
  | acked
  deriving DecidableEq

/-- Where `_spp_tx_task` stands: in `xQueueReceive`, in the last `_spp_send_buffer` of a pass, or
in one with the bytes `data` of the packet still to come. -/
inductive TxTask (α : Type)
  | receiving
  | flushing
  | splitting (data : List α)

namespace TxTask

variable {α : Type}

/-- The bytes of the packet in hand that are not in the buffer yet. -/
def data : TxTask α → List α
  | splitting data => data
  | _ => []

def sending : TxTask α → Bool
  | receiving => false
  | _ => true

@[simp] theorem data_receiving : (receiving : TxTask α).data = [] := rfl
@[simp] theorem data_flushing : (flushing : TxTask α).data = [] := rfl
@[simp] theorem data_splitting (data : List α) : (splitting data).data = data := rfl
@[simp] theorem sending_receiving : (receiving : TxTask α).sending = false := rfl
@[simp] theorem sending_flushing : (flushing : TxTask α).sending = true := rfl
@[simp] theorem sending_splitting (data : List α) : (splitting data).sending = true := rfl

end TxTask

/-- The globals of the driver. `client` is `_spp_client` (0 without one), `connectedBit` the bit
`SPP_CONNECTED` of the event group, `txBuffer` the first `_spp_tx_buffer_len` bytes of
`_spp_tx_buffer`. -/
structure BluetoothSerial (α : Type) where
  client : Nat
  secondConnectionAttempt : Bool
  connectedBit : Bool
  rxQueue : Fifo α RX_QUEUE_SIZE
  txQueue : Fifo (List α) TX_QUEUE_SIZE
  txBuffer : List α
  txTask : TxTask α

namespace BluetoothSerial

variable {α : Type}

/-- The driver after `begin`. -/
def boot : BluetoothSerial α where
  client := 0
  secondConnectionAttempt := false
  connectedBit := false
  rxQueue := Fifo.empty
  txQueue := Fifo.empty
  txBuffer := []
  txTask := .receiving

/-! ## Sending -/

/-- `write(buffer, size)`: whether the packet is accepted, and the driver after it. `malloc` says
whether there is memory for the packet. On a full queue this is the moment at which `xQueueSend`
gives up. -/
def write (malloc : Bool) (buffer : List α) (s : BluetoothSerial α) : Bool × BluetoothSerial α :=
  if s.client = 0 then (false, s)
  else if buffer = [] then (false, s)
  else if malloc = false then (false, s)
  else match s.txQueue.send buffer with
    | some txQueue => (true, { s with txQueue := txQueue })
    | none => (false, s)

/-- `_spp_send_buffer`: what it returns, what it has handed to `esp_spp_write`, and the driver. -/
def sendBuffer (outcome : Outcome) (s : BluetoothSerial α) :
    Bool × Option (List α) × BluetoothSerial α :=
  if s.client = 0 then (false, none, s)
  else match outcome with
    | .congested => (false, none, s)
    | .writeFailed => (false, none, s)
    | .ackFailed => (false, some s.txBuffer, { s with txBuffer := [] })
    | .acked => (true, some s.txBuffer, { s with txBuffer := [] })

/-- The end of a pass: the buffer is sent now if no packet waits. -/
def flushIfIdle (s : BluetoothSerial α) : BluetoothSerial α :=
  { s with txTask := if s.txQueue.toList = [] then .flushing else .receiving }

/-- A pass of `_spp_tx_task` behind `xQueueReceive`, up to the next blocking call. -/
def receivePacket (s : BluetoothSerial α) : BluetoothSerial α :=
  match s.txQueue.receive with
  | none => s
  | some (packet, txQueue) =>
    if packet.length ≤ SPP_TX_MAX - s.txBuffer.length then
      let s := { s with txQueue := txQueue, txBuffer := s.txBuffer ++ packet }
      if SPP_TX_MAX = s.txBuffer.length then { s with txTask := .flushing } else s.flushIfIdle
    else
      let toSend := SPP_TX_MAX - s.txBuffer.length
      { s with
        txQueue := txQueue
        txBuffer := s.txBuffer ++ packet.take toSend
        txTask := .splitting (packet.drop toSend) }

/-- A pass behind a `_spp_send_buffer` with `data` still to come, up to the next blocking call. -/
def continueSplitting (data : List α) (sent : Bool) (s : BluetoothSerial α) : BluetoothSerial α :=
  -- `len = 0`: the rest of the packet is given up
  let data := if sent then data else []
  if SPP_TX_MAX ≤ data.length then
    { s with
      txBuffer := data.take SPP_TX_MAX
      txTask := .splitting (data.drop SPP_TX_MAX) }
  else if data ≠ [] then
    -- the buffer has just been sent, so it is empty
    { s with txBuffer := s.txBuffer ++ data }.flushIfIdle
  else { s with txTask := .receiving }

/-- `_spp_send_buffer` returns, and the task goes on to the next blocking call. -/
def sendReturns (outcome : Outcome) (s : BluetoothSerial α) : BluetoothSerial α :=
  let r := s.sendBuffer outcome
  match s.txTask with
  | .receiving => s
  | .flushing => { r.2.2 with txTask := .receiving }
  | .splitting data => r.2.2.continueSplitting data r.1

/-! ## Receiving -/

/-- `ESP_SPP_DATA_IND_EVT`: the loop breaks at the first byte that does not fit. -/
def dataInd (data : List α) (s : BluetoothSerial α) : BluetoothSerial α :=
  { s with rxQueue := s.rxQueue.sendAll data }

def available (s : BluetoothSerial α) : Nat := s.rxQueue.toList.length

/-- `none` is `-1`. -/
def read (s : BluetoothSerial α) : Option α × BluetoothSerial α :=
  match s.rxQueue.receive with
  | none => (none, s)
  | some (byte, rxQueue) => (some byte, { s with rxQueue := rxQueue })

/-! ## Connections -/

/-- `ESP_SPP_SRV_OPEN_EVT`, successful. -/
def srvOpen (handle : Nat) (s : BluetoothSerial α) : BluetoothSerial α :=
  let s := if s.client = 0 then { s with client := handle, txBuffer := [] }
    else { s with secondConnectionAttempt := true }
  { s with connectedBit := true }

/-- `ESP_SPP_CLOSE_EVT`, successful. -/
def close (s : BluetoothSerial α) : BluetoothSerial α :=
  let s := if s.secondConnectionAttempt then { s with secondConnectionAttempt := false }
    else { s with client := 0 }
  { s with connectedBit := false }

@[simp] theorem srvOpen_rxQueue (handle : Nat) (s : BluetoothSerial α) :
    (s.srvOpen handle).rxQueue = s.rxQueue := by
  unfold srvOpen
  split <;> rfl

@[simp] theorem close_rxQueue (s : BluetoothSerial α) : s.close.rxQueue = s.rxQueue := by
  unfold close
  split <;> rfl

/-! ## The machine -/

inductive Input (α : Type)
  | write (malloc : Bool) (buffer : List α)
  | receive
  | send (outcome : Outcome)
  | dataInd (data : List α)
  | read
  | srvOpen (handle : Nat)
  | close

def step (s : BluetoothSerial α) : Input α → BluetoothSerial α
  | .write malloc buffer => (s.write malloc buffer).2
  | .receive => if s.txTask.sending then s else s.receivePacket
  | .send outcome => s.sendReturns outcome
  | .dataInd data => s.dataInd data
  | .read => s.read.2
  | .srvOpen handle => s.srvOpen handle
  | .close => s.close

def machine (α : Type) : Machine (BluetoothSerial α) (Input α) := ⟨boot, step⟩

/-- The packet a step accepts. -/
def accepted (s : BluetoothSerial α) : Input α → Option (List α)
  | .write malloc buffer => if (s.write malloc buffer).1 then some buffer else none
  | _ => none

/-- The bytes a step hands to `esp_spp_write`. -/
def written (s : BluetoothSerial α) : Input α → Option (List α)
  | .send outcome => if s.txTask.sending then (s.sendBuffer outcome).2.1 else none
  | _ => none

/-- The bytes the program has got accepted in a run, and those handed to `esp_spp_write`. -/
def acceptedBytes (is : List (Input α)) : List α := ((machine α).labels accepted is).flatten

def writtenBytes (is : List (Input α)) : List α := ((machine α).labels written is).flatten

end BluetoothSerial

end BuptCar
