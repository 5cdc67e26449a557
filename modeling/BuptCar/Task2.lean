import BuptCar.Dep.AutoTrack
import BuptCar.Lib.Machine

/-!
# `bupt_car_2.ino`

`Task2` as a machine: `task2 p` is the state in which it enters one of its two endless loops,
`Car.step` one step of control from there. `p : Prelude` is what the hardware delivers before the
loops. `trackingMachine p bestRecord` is the tracking loop entered with any record, whatever the
calibration gave; `task2` enters it with the calibrated one.
-/

namespace BuptCar

/-- What the hardware delivers before the loops, and the value `bestRecord`, declared without an
initialiser, happens to have. -/
structure Prelude where
  blankBuff : RawBuff
  frames : Nat → Frame × Frame
  bestRecord : ExplosureRecord

namespace Car

def setup (bestRecord : ExplosureRecord) : Car where
  ccd := Ccd.boot
  chassis := Chassis.setup
  speedControl := {}
  angelPID := BuptCar.angelPID
  blankRGB := ⟨0, 0, 0⟩
  color := 0
  data := BtData.boot
  location := 0
  prevTime := 0
  boardLed := false
  connected := false
  bestRecord := bestRecord
  returnFromPlatform := none
  control := .tracking
  trace := []

/-- `setupBlankColor`: of its two readings the second is kept. -/
def setupBlankColor (blankBuff : RawBuff) (c : Car) : Car :=
  { c with blankRGB := getColor blankBuff }.emit
    ([Event.delay 400] ++ getColorDelays ++ [Event.delay 100] ++ getColorDelays ++
      [Event.delay 1000])

def calibrationEvents (frames : Nat → Frame × Frame) : List Event :=
  (List.range Ccd.recordSize).flatMap fun i =>
    captureEvents (Ccd.testedTime i) (frames i).1 ++ captureEvents 0 (frames i).2

/-- `prepareCCD`: the new state and `cameraIsBlocked`. -/
def prepareCCD (frames : Nat → Frame × Frame) (c : Car) : Car × Bool :=
  let r := c.ccd.getBestExplosureTime frames c.bestRecord
  let c := { c with bestRecord := r.bestRecord, ccd := r.ccd }
  (c.emit (calibrationEvents frames ++ [.delay 2000]), r.cameraIsBlocked)

/-- `Task2` up to the choice of its loop. -/
def calibrate (p : Prelude) : Car × Bool :=
  ((setup p.bestRecord).setupBlankColor p.blankBuff).prepareCCD p.frames

/-- The tracking branch up to its loop. -/
def enterTracking (c : Car) : Car := { c with control := .tracking }.delay 1000

/-- `getTime`: the duration of the previous loop (`-1` without a record), and the new state. The
difference of two `int`s is the 32-bit one. -/
def getTime (millis : Nat) (c : Car) : Int × Car :=
  let loopTime := toInt32 millis
  let prevTimeMs := if c.prevTime = 0 then -1 else toInt32 (loopTime - c.prevTime)
  (prevTimeMs, { c with prevTime := loopTime })

theorem getTime_unset {c : Car} (h : c.prevTime = 0) (millis : Nat) :
    (c.getTime millis).1 = -1 := if_pos h

theorem getTime_set {c : Car} (h : c.prevTime ≠ 0) (millis : Nat) :
    (c.getTime millis).1 = toInt32 (toInt32 millis - c.prevTime) := if_neg h

/-- `substractedExplosureTime` of the tracking loop. -/
def substractedTime (prevTimeMs : Int) : Int :=
  let noTimeRecord := decide (prevTimeMs = -1)
  -- it starts from 0, not from the best exposure time
  let substractedExplosureTime : Int := 0
  if !noTimeRecord then
    let substractedExplosureTime := substractedExplosureTime - prevTimeMs
    if substractedExplosureTime < 0 then 0 else substractedExplosureTime
  else substractedExplosureTime

/-- `noTimeRecord || returnFromPlatform`. -/
def initStarting (prevTimeMs : Int) (undef : Int) (c : Car) : Bool :=
  decide (prevTimeMs = -1) || c.returnFromPlatform.getD (decide (undef ≠ 0))

/-- One iteration of the tracking loop up to the call of `autoTrack`: its two last arguments, and
the state. -/
def beginLoop (inp : Inputs) (c : Car) : Int × Bool × Car :=
  let (prevTimeMs, c) := c.getTime inp.millis
  let substractedExplosureTime := substractedTime prevTimeMs
  let initStarting := c.initStarting prevTimeMs inp.undef
  (substractedExplosureTime, initStarting,
    c.emit [.iterate prevTimeMs substractedExplosureTime initStarting])

/-- One iteration of the tracking loop, up to the return of `autoTrack` or its first endless
loop. -/
def trackingLoop (inp : Inputs) (c : Car) : Car :=
  let (substractedExplosureTime, initStarting, c) := c.beginLoop inp
  c.autoTrack c.bestRecord.explosureTime substractedExplosureTime initStarting inp

def btLoop (inp : Inputs) (c : Car) : Car :=
  let c := if !c.connected && inp.btConnected then { c with connected := true } else c
  if c.connected then
    { c with chassis := c.chassis.parseCommands inp.btRecieve }.delay 20
  else c

def step (c : Car) (inp : Inputs) : Car :=
  match c.control with
  | .btMode => c.btLoop inp
  | .tracking => c.trackingLoop inp
  | .discarding => c.discardFrame inp
  | .leaving => c.awaitTrack inp
  | .halted => c.blink

/-- The status `processCCD` gives the frame of a step. -/
def status (c : Car) (inp : Inputs) : Status :=
  (c.ccd.processCCD 0 true inp.resetFrame inp.frame).tracingStatus

/-- The classification of a step; the Bluetooth loop and the blinking loop read no frame. -/
def classification (c : Car) (inp : Inputs) : Option Status :=
  match c.control with
  | .btMode | .halted => none
  | .tracking | .discarding | .leaving => some (c.status inp)

end Car

/-- `Task2` up to its endless loop. -/
def task2 (p : Prelude) : Car :=
  let (c, cameraIsBlocked) := Car.calibrate p
  if cameraIsBlocked then { c with control := .btMode } else c.enterTracking

def task2Machine (p : Prelude) : Machine Car Inputs := ⟨task2 p, Car.step⟩

/-- The tracking loop, entered with `bestRecord`. -/
def trackingMachine (p : Prelude) (bestRecord : ExplosureRecord) : Machine Car Inputs where
  init := { (Car.calibrate p).1 with bestRecord := bestRecord }.enterTracking
  step := Car.step

theorem task2_of_not_blocked {p : Prelude} (h : (Car.calibrate p).2 = false) :
    task2Machine p = trackingMachine p (Car.calibrate p).1.bestRecord := by
  unfold task2Machine trackingMachine task2
  generalize Car.calibrate p = r at h ⊢
  obtain ⟨c, b⟩ := r
  cases h
  rfl

end BuptCar
