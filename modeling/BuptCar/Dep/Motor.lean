import BuptCar.Dep.Math
import BuptCar.Dep.Pid

/-!
# `dep/motor.h`

The two motors, each driven by a front and a back LEDC channel. `Chassis` holds the globals of
`motor.h`, the flag of `commandParser.h` and the LEDC channels (the servo's channel 0 included).

`motorForward` gets the value of `getSpeed()` as `currentSpeed`: a rational, or `none` where the
division there was by zero. Then the error is no finite number, and since `motorPID` is never
reset, neither is any later output: `motorPID` is `none` from then on, and the duty written is
some value `undef` (the conversion of such a float is undefined).
-/

namespace BuptCar

def PWM_CHANNEL_LEFT_MOTOR_FRONT : Nat := 2
def PWM_CHANNEL_LEFT_MOTOR_BACK : Nat := 3
def PWM_CHANNEL_RIGHT_MOTOR_FRONT : Nat := 4
def PWM_CHANNEL_RIGHT_MOTOR_BACK : Nat := 5

def cMotorResolution : Nat := 16
def cDefaultPower : Int := 24000
def cMaximumPower : Int := 32000

structure Chassis where
  ledc : Ledc
  currentPower : Int
  maxResolution : ℚ
  /-- `none` once a non-finite error has been accumulated. -/
  motorPID : Option Pid
  boost : Bool

namespace Chassis

def boot : Chassis where
  ledc := fun _ => 0
  currentPower := 0
  maxResolution := 0
  motorPID := some (Pid.new speedKp speedKi speedKd)
  boost := false

/-- `ledcSetup` and `ledcAttachPin` write no duty. -/
def initMotor (c : Chassis) : Chassis :=
  { c with
    currentPower := cDefaultPower
    maxResolution := ((1 <<< cMotorResolution : Nat) : ℚ) - 1 }

/-- The front and back duty of the left motor. -/
def left (c : Chassis) : Nat × Nat :=
  (c.ledc PWM_CHANNEL_LEFT_MOTOR_FRONT, c.ledc PWM_CHANNEL_LEFT_MOTOR_BACK)

def right (c : Chassis) : Nat × Nat :=
  (c.ledc PWM_CHANNEL_RIGHT_MOTOR_FRONT, c.ledc PWM_CHANNEL_RIGHT_MOTOR_BACK)

/-- The four `ledcWrite`s of `motorControl`. -/
def writeBridges (lFront rFront : Bool) (lDuty rDuty : Nat) (c : Chassis) : Chassis :=
  let l := c.ledc
  let l := if lFront then
      ledcWrite PWM_CHANNEL_LEFT_MOTOR_BACK 0 (ledcWrite PWM_CHANNEL_LEFT_MOTOR_FRONT lDuty l)
    else
      ledcWrite PWM_CHANNEL_LEFT_MOTOR_BACK lDuty (ledcWrite PWM_CHANNEL_LEFT_MOTOR_FRONT 0 l)
  let l := if rFront then
      ledcWrite PWM_CHANNEL_RIGHT_MOTOR_BACK 0 (ledcWrite PWM_CHANNEL_RIGHT_MOTOR_FRONT rDuty l)
    else
      ledcWrite PWM_CHANNEL_RIGHT_MOTOR_BACK rDuty (ledcWrite PWM_CHANNEL_RIGHT_MOTOR_FRONT 0 l)
  { c with ledc := l }

def motorControl (lFront rFront : Bool) (lPower rPower : ℚ) (c : Chassis) : Chassis :=
  let lPower := clamp lPower 0 c.maxResolution
  let rPower := clamp rPower 0 c.maxResolution
  c.writeBridges lFront rFront (toUInt lPower) (toUInt rPower)

/-- All four channels at one duty, written in the order of `motorIdle` and `motorBrake`. -/
def writeAll (duty : Nat) (c : Chassis) : Chassis :=
  { c with
    ledc := ledcWrite PWM_CHANNEL_RIGHT_MOTOR_BACK duty
      (ledcWrite PWM_CHANNEL_RIGHT_MOTOR_FRONT duty
        (ledcWrite PWM_CHANNEL_LEFT_MOTOR_BACK duty
          (ledcWrite PWM_CHANNEL_LEFT_MOTOR_FRONT duty c.ledc))) }

def motorIdle (c : Chassis) : Chassis := c.writeAll 0

def motorBrake (c : Chassis) : Chassis := c.writeAll (toUInt c.maxResolution)

def motorForward (aimSpeed : ℚ) (currentSpeed : Option ℚ) (undef : Nat) (c : Chassis) : Chassis :=
  if aimSpeed = 0 then c.motorIdle
  else
    let currentPower := clamp c.currentPower 0 cMaximumPower
    match c.motorPID, currentSpeed with
    | some motorPID, some currentSpeed =>
      let delta := aimSpeed - currentSpeed
      let motorPID := motorPID.update delta
      let p := c.currentPower + motorPID.pidValue
      let p := min p cMaximumPower
      { c with motorPID := some motorPID, currentPower := currentPower }.motorControl true true p p
    | _, _ =>
      { c with motorPID := none, currentPower := currentPower }.writeBridges true true undef undef

/-! ## What the operations write -/

/-- The duties `(front, back)` on both motors. -/
def drive (duties : Nat × Nat) (c : Chassis) : Chassis :=
  { c with
    ledc := ledcWrite PWM_CHANNEL_RIGHT_MOTOR_BACK duties.2
      (ledcWrite PWM_CHANNEL_RIGHT_MOTOR_FRONT duties.1
        (ledcWrite PWM_CHANNEL_LEFT_MOTOR_BACK duties.2
          (ledcWrite PWM_CHANNEL_LEFT_MOTOR_FRONT duties.1 c.ledc))) }

/-- The duties of a bridge driven forwards or backwards. -/
def pair (front : Bool) (duty : Nat) : Nat × Nat := if front then (duty, 0) else (0, duty)

section
variable (front : Bool) (duty : Nat) (duties : Nat × Nat) (c : Chassis)

@[simp] theorem drive_left : (c.drive duties).left = duties := rfl
@[simp] theorem drive_right : (c.drive duties).right = duties := rfl
@[simp] theorem drive_servo : (c.drive duties).ledc 0 = c.ledc 0 := rfl
@[simp] theorem drive_maxResolution : (c.drive duties).maxResolution = c.maxResolution := rfl
@[simp] theorem drive_motorPID : (c.drive duties).motorPID = c.motorPID := rfl
@[simp] theorem drive_currentPower : (c.drive duties).currentPower = c.currentPower := rfl
@[simp] theorem drive_boost : (c.drive duties).boost = c.boost := rfl

theorem writeBridges_same : c.writeBridges front front duty duty = c.drive (pair front duty) := by
  cases front <;> rfl

@[simp] theorem initMotor_maxResolution : c.initMotor.maxResolution = 65535 := by
  norm_num [initMotor, cMotorResolution, Nat.shiftLeft_eq]

end

theorem motorBrake_eq {c : Chassis} (h : c.maxResolution = 65535) :
    c.motorBrake = c.drive (65535, 65535) := by
  have hd : toUInt c.maxResolution = 65535 := by rw [h]; simp
  rw [motorBrake, hd]
  rfl

theorem motorControl_eq (front : Bool) (p : ℚ) {c : Chassis} (h : c.maxResolution = 65535) :
    c.motorControl front front p p = c.drive (pair front (toUInt (clamp p 0 65535))) := by
  simp only [motorControl, h, writeBridges_same]

/-- `motorForward` on finite numbers: the PID step, and the clamped power on both front
channels. -/
theorem motorForward_eq {aim speed : ℚ} {undef : Nat} {pid : Pid} {c : Chassis} (haim : aim ≠ 0)
    (hpid : c.motorPID = some pid) (h : c.maxResolution = 65535) :
    c.motorForward aim (some speed) undef =
      { c with
        motorPID := some (pid.update (aim - speed))
        currentPower := clamp c.currentPower 0 cMaximumPower }.drive
        (toUInt (clamp (min (c.currentPower + (pid.update (aim - speed)).pidValue)
          (cMaximumPower : ℚ)) 0 65535), 0) := by
  simp only [motorForward, if_neg haim, hpid]
  exact motorControl_eq true _ h

theorem motorForward_maxResolution (aim : ℚ) (speed : Option ℚ) (undef : Nat) (c : Chassis) :
    (c.motorForward aim speed undef).maxResolution = c.maxResolution := by
  unfold motorForward
  split
  · rfl
  · dsimp only
    split <;> rfl

theorem motorForward_zero (speed : Option ℚ) (undef : Nat) (c : Chassis) :
    c.motorForward 0 speed undef = c.drive (0, 0) := if_pos rfl

end Chassis

end BuptCar
