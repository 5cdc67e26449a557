import BuptCar.Dep.Ccd
import BuptCar.Dep.Color
import BuptCar.Dep.CommandParser
import BuptCar.Dep.Data
import BuptCar.Dep.SpeedControl

/-!
# `dep/autotrack.h`

`Car` holds the globals of the program and the locals of `Task2`, and `trace`, the log of what the
program does to the outside (`Event`). `Inputs` is what the hardware delivers during one step.

`autoTrack` never returns on two of its paths, so its state of control is explicit (`Control`): a
call is the step `autoTrack`, which on a platform ends behind the first `motorForward`
(`platformStop`); the frame thrown away then is the step `discardFrame`, one round of the loop that
waits for a track is `awaitTrack`, and one round of the endless blinking loop is `blink`. Every
step but `blink` classifies exactly one frame.

What the program shows and the lamp of the colour sensor are not part of a `Car`: no computation
reads them, and the calls that set them stand beside it.
-/

namespace BuptCar

/-- Where `Task2` stands: in the Bluetooth loop, at the head of the tracking loop, behind a platform
stop before the frame that is thrown away, in the loop that then waits for a track, or in the
endless blinking loop. -/
inductive Control
  | btMode
  | tracking
  | discarding
  | leaving
  | halted
  deriving DecidableEq, Repr

/-- What the program does to the outside. The SI pulse, the pixel reads and the exposure delay of a
capture are `si`, `pixels` and `expose`, any other delay is `delay`; `iterate` is the call of
`autoTrack` in the tracking loop, `classified` the return of `processCCD`, `located` and `colored`
are the location and the colour of a platform stop, `sent` is `btSend`. -/
inductive Event
  | si
  | pixels (frame : Frame)
  | expose (ms : Int)
  | delay (ms : Int)
  | classified (status : Status)
  | iterate (prevTimeMs substractedExplosureTime : Int) (initStarting : Bool)
  | located (location : Int)
  | colored (color : Int)
  | sent (message : Text)

/-- What the hardware delivers during one step: the uptime when `getTime` and when `getSpeed` read
the clock, the frames of the first capture of a pair and of the one that is used, the encoder
interrupts up to `getSpeed`. `undef` is the value of whatever C leaves undefined. -/
structure Inputs where
  millis : Nat
  motorOn : Bool
  resetFrame : Frame
  frame : Frame
  pulses : Nat
  speedMillis : Nat
  rawBuff : RawBuff
  btConnected : Bool
  btRecieve : Int
  undef : Int

structure Car where
  ccd : Ccd
  chassis : Chassis
  speedControl : SpeedControl
  angelPID : Pid
  blankRGB : Rgb UInt16
  color : Int
  data : BtData
  location : Int
  prevTime : Int
  boardLed : Bool
  connected : Bool
  bestRecord : ExplosureRecord
  /-- `none` until `Task2` assigns it -/
  returnFromPlatform : Option Bool
  control : Control
  trace : List Event

def angelPID : Pid := Pid.new angleKp angleKi angleKd

/-- The argument of `servoWritePixel` for a detected position, and the PID object after it. -/
def steeredPixel (pid : Pid) (trackMidPixel : Int) : Int × Pid :=
  let pid := pid.update (trackMidPixel - 64 : Int)
  (toInt (pid.pidValue + 64), pid)

def platformReached : Text := "Platform Reached".toList

/-- What `btSend` writes to the serial port: `println` ends the message with a line break. -/
def println (message : Text) : Text := message ++ ['\r', '\n']

namespace Car

def emit (es : List Event) (c : Car) : Car := { c with trace := c.trace ++ es }

def delay (ms : Int) (c : Car) : Car := c.emit [.delay ms]

def servoWritePixel (trackMidPoint : Int) (c : Car) : Car :=
  { c with chassis := { c.chassis with
      ledc := BuptCar.servoWritePixel trackMidPoint c.chassis.ledc } }

def motorBrake (c : Car) : Car := { c with chassis := c.chassis.motorBrake }

/-- `getSpeed` runs only where the aim is not zero. -/
def motorForward (aimSpeed : ℚ) (inp : Inputs) (c : Car) : Car :=
  let s := SpeedControl.motorCountInterrupt^[inp.pulses] c.speedControl
  let r := s.getSpeed inp.speedMillis
  { c with
    chassis := c.chassis.motorForward aimSpeed r.1 inp.undef.toNat
    speedControl := if aimSpeed = 0 then s else r.2 }

def btSend (message : Text) (c : Car) : Car := c.emit [.sent message]

def captureEvents (explosureTimeMs : Int) (frame : Frame) : List Event :=
  [.si, .pixels frame, .expose explosureTimeMs]

/-- What `processCCD` does to the outside before it classifies. -/
def processEvents (explosureTime : Int) (resetAndExplosure : Bool) (inp : Inputs) : List Event :=
  if resetAndExplosure then captureEvents explosureTime inp.resetFrame ++ captureEvents 0 inp.frame
  else captureEvents explosureTime inp.frame

/-- `processCCD` on the car: the new state and the two reference parameters. -/
def processCCD (explosureTime : Int) (resetAndExplosure : Bool) (trackMidPixel : Int)
    (inp : Inputs) (c : Car) : Car × Int × Status :=
  let r := c.ccd.processCCD trackMidPixel resetAndExplosure inp.resetFrame inp.frame
  let c := { c with ccd := r.ccd }
  (c.emit (processEvents explosureTime resetAndExplosure inp ++ [.classified r.tracingStatus]),
    r.trackMidPixel, r.tracingStatus)

/-- The case `STATUS_NORMAL`. -/
def trackNormal (motorAimSpeed : ℚ) (trackMidPixel : Int) (inp : Inputs) (c : Car) : Car :=
  let s := steeredPixel c.angelPID trackMidPixel
  let c := { c with angelPID := s.2 }
  let c := c.servoWritePixel s.1
  let c := c.motorForward motorAimSpeed inp
  { c with returnFromPlatform := some false }

/-- The six reads of `getColor`, each followed by `delay(10)`. -/
def getColorDelays : List Event := List.replicate 6 (.delay 10)

def readColor (inp : Inputs) (c : Car) : Car :=
  let color := (getRGB inp.rawBuff c.blankRGB).getD inp.undef
  { c with color := color }.emit (getColorDelays ++ [Event.colored color])

/-- The two `btSend`s of a platform stop. -/
def report (c : Car) : Car :=
  let c := { c with data := c.data.setCargo c.location c.color }
  let c := c.btSend platformReached
  if c.location.tmod platformNum = 0 then
    let c := { c with data := c.data.setCount (c.location.tdiv platformNum) }
    c.btSend c.data.encode
  else c

/-- The case `STATUS_PLATFORM` up to the colour reading. -/
def arrive (inp : Inputs) (c : Car) : Car :=
  let c := c.servoWritePixel 64
  let c := c.motorBrake
  let c := { c with location := c.location + 1 }
  let c := c.emit [.located c.location]
  let c := c.delay 1000
  -- oledCountdown("Capturing", 600, 1)
  let c := c.emit [.delay 600, .delay 600, .delay 600]
  c.readColor inp

/-- The case `STATUS_PLATFORM`, up to the frame thrown away. -/
def platformStop (motorAimSpeed : ℚ) (inp : Inputs) (c : Car) : Car :=
  let c := c.arrive inp
  let c := c.report
  let c := c.delay 2000
  let c := c.motorForward (motorAimSpeed / 3) inp
  { c with control := .discarding }

/-- The default case, up to the endless loop. -/
def halt (c : Car) : Car :=
  let c := { c with angelPID := c.angelPID.reset }
  let c := c.servoWritePixel 64
  let c := c.motorBrake
  { c with control := .halted }

/-- `autoTrack` up to its switches: the call of `processCCD`. -/
def sense (bestExplosureTime substractedExplosureTime : Int) (initStarting : Bool) (inp : Inputs)
    (c : Car) : Car × Int × Status :=
  if initStarting then c.processCCD bestExplosureTime true 0 inp
  else c.processCCD substractedExplosureTime false 0 inp

/-- The switches of `autoTrack`, up to its return or its first endless loop. -/
def react (motorAimSpeed : ℚ) (trackMidPixel : Int) (trackStatus : Status) (inp : Inputs)
    (c : Car) : Car :=
  let c := { c with boardLed := decide (trackStatus = Status.platform) }
  match trackStatus with
  | .normal => c.trackNormal motorAimSpeed trackMidPixel inp
  | .platform => c.platformStop motorAimSpeed inp
  | .noTrack => c.halt

def motorAimSpeed (inp : Inputs) : ℚ := if inp.motorOn then aimSpeed else 0

/-- A call of `autoTrack`, up to its return or its first endless loop. -/
def autoTrack (bestExplosureTime substractedExplosureTime : Int) (initStarting : Bool)
    (inp : Inputs) (c : Car) : Car :=
  let r := c.sense bestExplosureTime substractedExplosureTime initStarting inp
  r.1.react (motorAimSpeed inp) r.2.1 r.2.2 inp

/-- The first `processCCD` behind a platform stop, whose result is overwritten. -/
def discardFrame (inp : Inputs) (c : Car) : Car :=
  let c := (c.processCCD c.bestRecord.explosureTime true 0 inp).1
  { c with control := .leaving }

/-- One round of the loop that waits for a track; on `STATUS_NORMAL`, `autoTrack` returns
`true`. -/
def awaitTrack (inp : Inputs) (c : Car) : Car :=
  let r := c.processCCD c.bestRecord.explosureTime true 0 inp
  if r.2.2 = Status.normal then { r.1 with control := .tracking, returnFromPlatform := some true }
  else r.1

def blink (c : Car) : Car := { c with boardLed := !c.boardLed }.delay 1000

end Car

end BuptCar
