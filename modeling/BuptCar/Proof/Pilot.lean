import BuptCar.Proof.Steering
import BuptCar.Proof.Stale

/-!
# What steers the car

`Pilot` is the part of the car that finds its way: the threshold remembered, the state of control,
the location, the steering PID and the servo's duty. Its machine reads frames and nothing else;
`pilot_run` shows that the car's tracking loop refines it. So neither the clock nor the encoder, the
motors, the colour sensor, the first frames of the capture pairs or the calibration have any
influence on where the car steers and when it stops.
-/

namespace BuptCar

namespace Ccd

/-- The image of a frame binarised with a stored average. -/
def seen (average : Int) (frame : Frame) : Ccd :=
  ({ boot with lastAvailableAverage := average }.captrueCCD frame).image

theorem image_eq_seen (frame : Frame) (c : Ccd) :
    (c.captrueCCD frame).image = seen c.lastAvailableAverage frame := rfl

theorem seen_dark (average : Int) (frame : Frame) (i : Nat) : (seen average frame).binaryData i =
    decide (i ∈ window ∧ (load frame).linearData i < threshold frame average) :=
  image_dark frame { boot with lastAvailableAverage := average } i

section
variable (trackMidPixel : Int) (resetAndExplosure : Bool) (resetFrame frame : Frame) (c : Ccd)

theorem processCCD_status :
    (c.processCCD trackMidPixel resetAndExplosure resetFrame frame).tracingStatus =
      (seen c.lastAvailableAverage frame).imageStatus := by
  rw [processCCD_eq, classify_status, image_eq_seen]

theorem processCCD_average :
    (c.processCCD trackMidPixel resetAndExplosure resetFrame frame).ccd.lastAvailableAverage =
      if (seen c.lastAvailableAverage frame).imageStatus = .normal then avgVal frame
      else c.lastAvailableAverage := by
  rw [processCCD_eq, classify_average, image_eq_seen, parseLinearVals_captrueCCD]
  rfl

theorem processCCD_pixel (h : (seen c.lastAvailableAverage frame).imageStatus = .normal) :
    (c.processCCD trackMidPixel resetAndExplosure resetFrame frame).trackMidPixel =
      (seen c.lastAvailableAverage frame).imagePixel := by
  rw [processCCD_eq]
  exact classify_pixel (c.captrueCCD frame) trackMidPixel h

end

end Ccd

/-! ## The pilot -/

structure Pilot where
  average : Int
  control : Control
  location : Int
  pid : Pid
  servo : Nat

namespace Pilot

def status (s : Pilot) (frame : Frame) : Status := (Ccd.seen s.average frame).imageStatus

def pixel (s : Pilot) (frame : Frame) : Int := (Ccd.seen s.average frame).imagePixel

/-- The average stored behind a frame. -/
def nextAverage (s : Pilot) (frame : Frame) : Int :=
  if s.status frame = .normal then Ccd.avgVal frame else s.average

/-- The servo's duty for a detected position. -/
def steer (s : Pilot) (frame : Frame) : Nat := steeringDuty s.pid (fun _ => 0) (s.pixel frame)

def track (s : Pilot) (frame : Frame) : Pilot :=
  match s.status frame with
  | .normal =>
    { s with
      average := s.nextAverage frame
      pid := (steeredPixel s.pid (s.pixel frame)).2
      servo := s.steer frame }
  | .platform =>
    { s with
      average := s.nextAverage frame
      control := .discarding
      location := s.location + 1
      servo := centreDuty }
  | .noTrack =>
    { s with
      average := s.nextAverage frame
      control := .halted
      pid := s.pid.reset
      servo := centreDuty }

def step (s : Pilot) (frame : Frame) : Pilot :=
  match s.control with
  | .tracking => s.track frame
  | .discarding => { s with average := s.nextAverage frame, control := .leaving }
  | .leaving =>
    { s with
      average := s.nextAverage frame
      control := if s.status frame = .normal then .tracking else .leaving }
  | .halted => s
  | .btMode => s

def machine : Machine Pilot Frame where
  init :=
    { average := 0, control := .tracking, location := 0, pid := angelPID, servo := centreDuty }
  step := step

end Pilot

/-! ## The car refines it -/

namespace Chassis

theorem writeBridges_servo (lFront rFront : Bool) (lDuty rDuty : Nat) (c : Chassis) :
    (c.writeBridges lFront rFront lDuty rDuty).ledc 0 = c.ledc 0 := by
  cases lFront <;> cases rFront <;> rfl

theorem motorForward_servo (aim : ℚ) (speed : Option ℚ) (undef : Nat) (c : Chassis) :
    (c.motorForward aim speed undef).ledc 0 = c.ledc 0 := by
  unfold motorForward
  split
  · rfl
  · dsimp only
    split
    · exact writeBridges_servo ..
    · exact writeBridges_servo ..

end Chassis

namespace Car

def pilot (c : Car) : Pilot where
  average := c.ccd.lastAvailableAverage
  control := c.control
  location := c.location
  pid := c.angelPID
  servo := c.chassis.ledc 0

theorem status_eq_pilot (c : Car) (inp : Inputs) : c.status inp = c.pilot.status inp.frame :=
  Ccd.processCCD_status ..

theorem sensed_pilot (inp : Inputs) (c : Car) : (c.sensed inp).1.pilot =
    { c.pilot with average := c.pilot.nextAverage inp.frame } := by
  have havg : (c.sensed inp).1.ccd.lastAvailableAverage = c.pilot.nextAverage inp.frame := by
    unfold sensed sense
    split
    · exact Ccd.processCCD_average ..
    · exact Ccd.processCCD_average ..
  have hpid : (c.sensed inp).1.angelPID = c.angelPID := by
    unfold sensed sense
    split <;> rfl
  rw [pilot, havg, hpid, sensed_control, sensed_chassis, (quiet_sensed inp c).location]
  rfl

theorem sensed_pixel {inp : Inputs} {c : Car} (h : c.status inp = .normal) :
    (c.sensed inp).2.1 = c.pilot.pixel inp.frame := by
  rw [status_eq_pilot] at h
  unfold sensed sense
  split
  · exact Ccd.processCCD_pixel _ _ _ _ _ h
  · exact Ccd.processCCD_pixel _ _ _ _ _ h

section
variable (aim : ℚ) (trackMidPixel : Int) (inp : Inputs) (c : Car)

theorem react_normal_pilot : (c.react aim trackMidPixel .normal inp).pilot =
    { c.pilot with
      pid := (steeredPixel c.pilot.pid trackMidPixel).2
      servo := steeringDuty c.pilot.pid (fun _ => 0) trackMidPixel } := by
  have hservo : (c.react aim trackMidPixel .normal inp).chassis.ledc 0 =
      steeringDuty c.angelPID (fun _ => 0) trackMidPixel := by
    refine (Chassis.motorForward_servo ..).trans ?_
    show steeringDuty c.angelPID c.chassis.ledc trackMidPixel = _
    rw [steeringDuty_eq, steeringDuty_eq]
  rw [pilot, hservo]
  rfl

theorem react_platform_pilot : (c.react aim trackMidPixel .platform inp).pilot =
    { c.pilot with
      control := .discarding, location := c.pilot.location + 1, servo := centreDuty } := by
  have hservo : (c.react aim trackMidPixel .platform inp).chassis.ledc 0 = centreDuty := by
    refine (Chassis.motorForward_servo ..).trans ?_
    show ({ c with boardLed := true }.arrive inp).report.chassis.ledc 0 = centreDuty
    rw [report_chassis]
    show BuptCar.servoWritePixel 64 c.chassis.ledc 0 = centreDuty
    rw [servoWritePixel_centre, ledcWrite_same]
  have hreport : ({ c with boardLed := true }.arrive inp).report.ccd = c.ccd ∧
      ({ c with boardLed := true }.arrive inp).report.location = c.location + 1 ∧
      ({ c with boardLed := true }.arrive inp).report.angelPID = c.angelPID := by
    rw [report_eq]
    exact ⟨rfl, rfl, rfl⟩
  obtain ⟨hccd, hloc, hpid⟩ := hreport
  rw [pilot, hservo, react_control]
  show Pilot.mk ({ c with boardLed := true }.arrive inp).report.ccd.lastAvailableAverage _
    ({ c with boardLed := true }.arrive inp).report.location
    ({ c with boardLed := true }.arrive inp).report.angelPID _ = _
  rw [hccd, hloc, hpid]
  rfl

theorem react_noTrack_pilot : (c.react aim trackMidPixel .noTrack inp).pilot =
    { c.pilot with control := .halted, pid := c.pilot.pid.reset, servo := centreDuty } := by
  have hservo : (c.react aim trackMidPixel .noTrack inp).chassis.ledc 0 = centreDuty := by
    show BuptCar.servoWritePixel 64 c.chassis.ledc 0 = centreDuty
    rw [servoWritePixel_centre, ledcWrite_same]
  rw [pilot, hservo]
  rfl

end

/-- One step of the car is one step of the pilot on the frame used. -/
theorem step_pilot {c : Car} (h : c.control ≠ .btMode) (inp : Inputs) :
    (c.step inp).pilot = c.pilot.step inp.frame := by
  have hframe : (c.processCCD c.bestRecord.explosureTime true 0 inp).1.pilot =
      { c.pilot with average := c.pilot.nextAverage inp.frame } := by
    have havg : (c.processCCD c.bestRecord.explosureTime true 0 inp).1.ccd.lastAvailableAverage =
      c.pilot.nextAverage inp.frame := Ccd.processCCD_average ..
    rw [pilot, havg]
    rfl
  unfold Pilot.step
  cases hc : c.control with
  | btMode => exact absurd hc h
  | tracking =>
    rw [step_tracking hc, trackingLoop_eq, sensed_status, show c.pilot.control = .tracking from hc]
    show _ = c.pilot.track inp.frame
    rw [Pilot.track, ← status_eq_pilot]
    cases hs : c.status inp with
    | normal => rw [react_normal_pilot, sensed_pilot, sensed_pixel hs]; rfl
    | platform => rw [react_platform_pilot, sensed_pilot]
    | noTrack => rw [react_noTrack_pilot, sensed_pilot]
  | discarding =>
    rw [step_discarding hc, show c.pilot.control = .discarding from hc]
    exact congrArg (fun s : Pilot => { s with control := .leaving }) hframe
  | leaving =>
    rw [step_leaving hc, show c.pilot.control = .leaving from hc, ← status_eq_pilot]
    by_cases hs : c.status inp = .normal
    · rw [awaitTrack_normal hs, if_pos hs]
      exact congrArg (fun s : Pilot => { s with control := .tracking }) hframe
    · rw [awaitTrack_other hs, if_neg hs, hframe]
      exact congrArg (Pilot.mk _ · _ _ _) hc
  | halted =>
    rw [step_halted hc, show c.pilot.control = .halted from hc]
    rfl

end Car

/-! ## Runs -/

/-- The calibration stores no average. -/
theorem Ccd.testExplosures_average (frames : Nat → Frame × Frame) (is : List Nat) (c : Ccd) :
    (testExplosures frames is c).2.lastAvailableAverage = c.lastAvailableAverage := by
  induction is generalizing c with
  | nil => rfl
  | cons i is ih => exact ih _

theorem Ccd.getBestExplosureTime_average (frames : Nat → Frame × Frame)
    (bestRecord : ExplosureRecord) (c : Ccd) :
    (c.getBestExplosureTime frames bestRecord).ccd.lastAvailableAverage =
      c.lastAvailableAverage :=
  testExplosures_average frames _ c

theorem Car.prepareCCD_pilot (frames : Nat → Frame × Frame) (c : Car) :
    (c.prepareCCD frames).1.pilot = c.pilot := by
  have havg := c.ccd.getBestExplosureTime_average frames c.bestRecord
  unfold prepareCCD
  generalize c.ccd.getBestExplosureTime frames c.bestRecord = r at havg
  exact congrArg (Pilot.mk · _ _ _ _) havg

theorem Car.prepareCCD_chassis (frames : Nat → Frame × Frame) (c : Car) :
    (c.prepareCCD frames).1.chassis = c.chassis := by
  unfold prepareCCD
  generalize c.ccd.getBestExplosureTime frames c.bestRecord = r
  rfl

/-- Up to its loop `Task2` leaves the chassis as `initServo` and `initMotor` do. -/
theorem Car.calibrate_chassis (p : Prelude) : (calibrate p).1.chassis = Chassis.setup := by
  unfold calibrate
  rw [prepareCCD_chassis]
  rfl

theorem pilot_init (p : Prelude) (bestRecord : ExplosureRecord) :
    (trackingMachine p bestRecord).init.pilot = Pilot.machine.init := by
  have hprep := Car.prepareCCD_pilot p.frames ((Car.setup p.bestRecord).setupBlankColor p.blankBuff)
  show { (Car.calibrate p).1 with bestRecord := bestRecord }.enterTracking.pilot = _
  unfold Car.calibrate
  generalize (((Car.setup p.bestRecord).setupBlankColor p.blankBuff).prepareCCD p.frames).1 = c
    at hprep
  exact congrArg (fun s : Pilot => { s with control := .tracking }) hprep

/-- **What steers the car.** In every run of the tracking loop the remembered threshold, the state
of control, the location, the steering PID and the servo's duty are those of the pilot on the frames
used: functions of these frames alone. -/
theorem pilot_run (p : Prelude) (bestRecord : ExplosureRecord) (is : List Inputs) :
    ((trackingMachine p bestRecord).run is).pilot = Pilot.machine.run (is.map Inputs.frame) := by
  induction is using List.reverseRecOn with
  | nil => exact pilot_init p bestRecord
  | append_singleton is inp ih =>
    have hmode := (Car.exposed_run p bestRecord is).mode
    rw [Machine.run_concat, List.map_append, List.map_singleton, Machine.run_concat, ← ih]
    exact Car.step_pilot hmode inp

/-- What the hardware delivers while the sensor sees `frame`. -/
def seeing (frame : Frame) : Inputs where
  millis := 1000
  motorOn := true
  resetFrame := frame
  frame := frame
  pulses := 0
  speedMillis := 1000
  rawBuff := fun _ => 0
  btConnected := false
  btRecieve := -1
  undef := 0

/-- Dark but for its right end. -/
def platformFrame (dark light : Fin 4096) : Frame := fun i => if i.1 < 110 then dark else light

end BuptCar
