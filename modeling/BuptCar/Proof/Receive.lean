import BuptCar.Dep.Bluetooth
import BuptCar.Proof.Assigned
import BuptCar.Proof.Pilot

/-!
# Remote control

In the Bluetooth loop the car is driven by the bytes it reads from the driver's queue. `pass_cases`
says what a pass does, `Served` is the invariant: the chassis is that of the command interpreter on
the bytes interpreted, and these are the first of the bytes stored. `remote_control` is the account
of every run; `link_lost` says that the connection is needed for nothing but new bytes: without them
the queue is worked off and the chassis then keeps its state.
-/

namespace BuptCar

open Chassis (commandMachine)

namespace BtMode

/-- The bytes of an indication that are queued. -/
def stored (s : BtMode) : Input → Option (List UInt8)
  | .dataInd data => some (data.take (RX_QUEUE_SIZE - s.serialBT.available))
  | _ => none

/-- The byte a pass interprets. -/
def interpreted (s : BtMode) : Input → Option UInt8
  | .pass => if s.car.connected || btConnected s.serialBT then s.serialBT.read.1 else none
  | _ => none

def command (byte : UInt8) : Int := byte.toNat

/-- A pass is one of the car's steps. -/
theorem pass_car (s : BtMode) (h : s.car.control = .btMode) (inp : Inputs) : s.pass.car =
    s.car.step { inp with
      btConnected := btConnected s.serialBT, btRecieve := (btRecieve s.serialBT).1 } := by
  unfold Car.step
  rw [h]
  show s.pass.car = s.car.btLoop _
  unfold pass Car.btLoop
  cases hc : s.car.connected with
  | true => simp [hc]
  | false => cases btConnected s.serialBT <;> simp [hc]

theorem btRecieve_cases (serialBT : BluetoothSerial UInt8) :
    (serialBT.rxQueue.toList = [] ∧ serialBT.read.1 = none ∧
        btRecieve serialBT = (-1, serialBT)) ∨
      ∃ byte, ∃ q : Fifo UInt8 RX_QUEUE_SIZE, serialBT.rxQueue.toList = byte :: q.toList ∧
        serialBT.read.1 = some byte ∧
        btRecieve serialBT = (command byte, { serialBT with rxQueue := q }) := by
  unfold btRecieve BluetoothSerial.available BluetoothSerial.read
  rcases serialBT.rxQueue.receive_cases with ⟨hq, hr⟩ | ⟨byte, q, hr, hq⟩
  · refine .inl ⟨hq, ?_, ?_⟩
    · rw [hr]
    · rw [hq]
      rfl
  · refine .inr ⟨byte, q, hq, ?_, ?_⟩
    · rw [hr]
    · rw [hr, if_pos (by simp [hq])]
      rfl

section
variable (s : BtMode)

/-- A pass waits for a connection, or finds no byte, or interprets the first one. -/
theorem pass_cases :
    (s.car.connected = false ∧ s.interpreted .pass = none ∧ s.pass = s) ∨
    (s.pass.car.connected = true ∧ s.pass.car.control = s.car.control ∧
      ((s.interpreted .pass = none ∧ s.serialBT.rxQueue.toList = [] ∧
          s.pass.serialBT = s.serialBT ∧ s.pass.car.chassis = s.car.chassis) ∨
        ∃ byte, s.interpreted .pass = some byte ∧
          s.serialBT.rxQueue.toList = byte :: s.pass.serialBT.rxQueue.toList ∧
          s.pass.car.chassis = s.car.chassis.parseCommands (command byte))) := by
  have hnone : ∀ c : Chassis, c.parseCommands (-1) = c := fun c => if_pos rfl
  by_cases hon : (s.car.connected || btConnected s.serialBT) = true
  · -- the command is interpreted by the car with its flag set
    have hpass : s.pass = ⟨(btRecieve s.serialBT).2,
        { s.car with
          connected := true
          chassis := s.car.chassis.parseCommands (btRecieve s.serialBT).1 }.delay 20⟩ := by
      unfold pass
      cases hc : s.car.connected with
      | true => simp [hc]
      | false => simp_all
    have hint : s.interpreted .pass = s.serialBT.read.1 := if_pos hon
    rw [hpass, hint]
    refine .inr ⟨rfl, rfl, ?_⟩
    rcases btRecieve_cases s.serialBT with ⟨hq, hr, hb⟩ | ⟨byte, q, hq, hr, hb⟩
    · rw [hb, hr]
      exact .inl ⟨rfl, hq, rfl, hnone _⟩
    · rw [hb, hr]
      exact .inr ⟨byte, rfl, hq, rfl⟩
  · obtain ⟨hc, hb⟩ : s.car.connected = false ∧ btConnected s.serialBT = false := by
      simpa using hon
    refine .inl ⟨hc, if_neg hon, ?_⟩
    simp [pass, hc, hb]

end

/-! ## Runs -/

/-- What holds of the chassis, the queue, and the bytes interpreted and stored so far. -/
structure Served (s : BtMode) (bytes : List UInt8) (chunks : List (List UInt8)) : Prop where
  mode : s.car.control = .btMode
  chassis : s.car.chassis = commandMachine.run (bytes.map command)
  queue : bytes ++ s.serialBT.rxQueue.toList = chunks.flatten
  waiting : s.car.connected = false → bytes = []

/-- An event of the stack that leaves the queue alone keeps everything. -/
theorem Served.of_rxQueue {s : BtMode} {bytes : List UInt8} {chunks : List (List UInt8)}
    (h : Served s bytes chunks) {serialBT : BluetoothSerial UInt8}
    (hq : serialBT.rxQueue = s.serialBT.rxQueue) :
    Served { s with serialBT := serialBT } bytes chunks :=
  ⟨h.mode, h.chassis, by rw [← h.queue, ← hq], h.waiting⟩

theorem Served.step {s : BtMode} {bytes : List UInt8} {chunks : List (List UInt8)}
    (h : Served s bytes chunks) (i : Input) :
    Served (s.step i) (bytes ++ (s.interpreted i).toList) (chunks ++ (s.stored i).toList) := by
  cases i with
  | pass =>
    show Served s.pass _ (chunks ++ [])
    rw [List.append_nil]
    rcases s.pass_cases with ⟨-, hi, hp⟩ | ⟨hc, hm, ⟨hi, hq, hs, hch⟩ | ⟨byte, hi, hq, hch⟩⟩
    · rw [hi, hp]
      simpa using h
    · rw [hi]
      simp only [Option.toList_none, List.append_nil]
      exact ⟨hm.trans h.mode, hch.trans h.chassis, hs ▸ h.queue,
        fun hf => absurd (hf.symm.trans hc) Bool.false_ne_true⟩
    · rw [hi]
      refine ⟨hm.trans h.mode, ?_, ?_, fun hf => absurd (hf.symm.trans hc) Bool.false_ne_true⟩
      · rw [hch, h.chassis, Option.toList_some, List.map_append, List.map_singleton,
          Machine.run_concat]
        rfl
      · have hqueue := h.queue
        rw [hq] at hqueue
        simpa using hqueue
  | dataInd data =>
    show Served _ (bytes ++ []) _
    rw [List.append_nil]
    refine ⟨h.mode, h.chassis, ?_, h.waiting⟩
    show bytes ++ (s.serialBT.rxQueue.sendAll data).toList = _
    rw [Fifo.sendAll_toList, ← List.append_assoc, h.queue]
    simp [stored, BluetoothSerial.available]
  | srvOpen handle =>
    show Served _ (bytes ++ []) (chunks ++ [])
    rw [List.append_nil, List.append_nil]
    exact h.of_rxQueue (s.serialBT.srvOpen_rxQueue handle)
  | close =>
    show Served _ (bytes ++ []) (chunks ++ [])
    rw [List.append_nil, List.append_nil]
    exact h.of_rxQueue s.serialBT.close_rxQueue

theorem Served.of_chassis {c : Car} (h : c.chassis = Chassis.setup) :
    Served ⟨.boot, { c with control := .btMode }⟩ [] [] := ⟨rfl, h, rfl, fun _ => rfl⟩

theorem served_init (p : Prelude) : Served (btMachine p).init [] [] :=
  .of_chassis (Car.calibrate_chassis p)

theorem served_run (p : Prelude) (is : List Input) : Served ((btMachine p).run is)
    ((btMachine p).labels interpreted is) ((btMachine p).labels stored is) :=
  Machine.run_history (served_init p) fun _ i _ _ _ h => h.step i

/-- The bytes the stack delivers. -/
def delivered (_ : BtMode) : Input → Option (List UInt8)
  | .dataInd data => some data
  | _ => none

theorem stored_eq_delivered (p : Prelude) {is : List Input}
    (h : ∀ pre data post, is = pre ++ .dataInd data :: post →
      ((btMachine p).run pre).serialBT.available + data.length ≤ RX_QUEUE_SIZE) :
    (btMachine p).labels stored is = (btMachine p).labels delivered is := by
  refine Machine.labelsFrom_eq_of _ _ _ fun pre i post heq => ?_
  cases i with
  | dataInd data =>
    have hfit : ((btMachine p).runFrom (btMachine p).init pre).serialBT.available + data.length ≤
        RX_QUEUE_SIZE := h pre data post heq
    exact congrArg some (List.take_of_length_le (by omega))
  | _ => rfl

/-- **Remote control.** In every run of the Bluetooth loop, whatever the stack delivers between the
passes, the chassis is the command interpreter's on the bytes interpreted; these and the bytes
waiting are the bytes stored, in their order and each once, and all bytes delivered are stored if
each indication fits into the queue; before a connection is seen nothing is interpreted, and the
loop is never left. -/
theorem remote_control (p : Prelude) (is : List Input) :
    ((btMachine p).run is).car.chassis =
        commandMachine.run (((btMachine p).labels interpreted is).map command) ∧
      (btMachine p).labels interpreted is ++ ((btMachine p).run is).serialBT.rxQueue.toList =
        ((btMachine p).labels stored is).flatten ∧
      ((∀ pre data post, is = pre ++ .dataInd data :: post →
          ((btMachine p).run pre).serialBT.available + data.length ≤ RX_QUEUE_SIZE) →
        (btMachine p).labels stored is = (btMachine p).labels delivered is) ∧
      (((btMachine p).run is).car.connected = false → (btMachine p).labels interpreted is = []) ∧
      ((btMachine p).run is).car.control = .btMode :=
  have h := served_run p is
  ⟨h.chassis, h.queue, stored_eq_delivered p, h.waiting, h.mode⟩

/-! ## Without new bytes -/

/-- From a connected car, the passes work the queue off, whatever happens to the link meanwhile. -/
theorem runFrom_silent (p : Prelude) {s : BtMode} (hs : s.car.connected = true) {js : List Input}
    (hjs : ∀ data, .dataInd data ∉ js) :
    ((btMachine p).runFrom s js).serialBT.rxQueue.toList =
        s.serialBT.rxQueue.toList.drop (js.count .pass) ∧
      (btMachine p).labelsFrom stored s js = [] := by
  induction js generalizing s with
  | nil => exact ⟨rfl, rfl⟩
  | cons j js ih =>
    have hrest : ∀ data, .dataInd data ∉ js := fun data h => hjs data (List.mem_cons_of_mem _ h)
    rw [Machine.runFrom_cons, Machine.labelsFrom]
    cases j with
    | pass =>
      rw [List.count_cons_self]
      rcases s.pass_cases with ⟨hf, -⟩ | ⟨hc, -, ⟨-, hq, hb, -⟩ | ⟨byte, -, hq, -⟩⟩
      · exact absurd (hf.symm.trans hs) Bool.false_ne_true
      · obtain ⟨hrun, hlabels⟩ := ih (s := s.pass) hc hrest
        rw [hb, hq, List.drop_nil] at hrun
        exact ⟨by rw [hq, List.drop_nil]; exact hrun, hlabels⟩
      · obtain ⟨hrun, hlabels⟩ := ih (s := s.pass) hc hrest
        exact ⟨by rw [hq, List.drop_succ_cons]; exact hrun, hlabels⟩
    | dataInd data => exact absurd List.mem_cons_self (hjs data)
    | srvOpen handle =>
      obtain ⟨hrun, hlabels⟩ := ih (s := s.step (.srvOpen handle)) hs hrest
      rw [List.count_cons_of_ne (by simp), ← s.serialBT.srvOpen_rxQueue handle]
      exact ⟨hrun, hlabels⟩
    | close =>
      obtain ⟨hrun, hlabels⟩ := ih (s := s.step .close) hs hrest
      rw [List.count_cons_of_ne (by simp), ← s.serialBT.close_rxQueue]
      exact ⟨hrun, hlabels⟩

/-- **Nothing stops the car when the link goes.** Once a connection has been seen, a run on which
the stack delivers nothing more, with at least a pass for each byte waiting, ends with the chassis
of the commands stored before it, however long it goes on and whether or not the link is up. -/
theorem link_lost (p : Prelude) (is js : List Input)
    (hconnected : ((btMachine p).run is).car.connected = true) (hjs : ∀ data, .dataInd data ∉ js)
    (hpass : ((btMachine p).run is).serialBT.available ≤ js.count .pass) :
    ((btMachine p).run (is ++ js)).car.chassis =
        commandMachine.run (((btMachine p).labels stored is).flatten.map command) ∧
      ((btMachine p).run (is ++ js)).serialBT.available = 0 := by
  obtain ⟨hqueue, hlabels⟩ := runFrom_silent p hconnected hjs
  rw [← Machine.run_append, List.drop_eq_nil_of_le hpass] at hqueue
  have hserved := served_run p (is ++ js)
  have hbytes := hserved.queue
  rw [hqueue, List.append_nil, Machine.labels_append _ stored, hlabels, List.append_nil] at hbytes
  refine ⟨?_, congrArg List.length hqueue⟩
  rw [hserved.chassis, hbytes]

/-- A command, then a refused connection whose end takes the bit away, and nothing more. -/
theorem link_lost_refused :
    ((btMachine (Car.uniformPrelude 0)).run ([.srvOpen 1, .dataInd [8, 200], .pass] ++
      [.srvOpen 2, .close, .pass])).car.chassis = commandMachine.run [8, 200] :=
  (link_lost (Car.uniformPrelude 0) [.srvOpen 1, .dataInd [8, 200], .pass]
    [.srvOpen 2, .close, .pass] rfl (by simp) (Nat.le_refl 1)).1

end BtMode

end BuptCar
