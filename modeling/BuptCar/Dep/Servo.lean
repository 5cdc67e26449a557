import BuptCar.Dep.Math

/-!
# `dep/servo.h`

The steering servo on LEDC channel 0 (50 Hz, 16 bit). In `servoWritePixel` the five-argument
`map` gets an rvalue, so it is the core's integer `map` (`Arduino.map`).
-/

namespace BuptCar

def cAngleLimit : ℚ := 42
def cBias : ℚ := 2
def cServoResolution : Nat := 16

/-- Steering -> Servo angle mapping (Ackermann). -/
def steeringToServo (angle : ℚ) : ℚ :=
  if angle < 0 then map angle (-42) 0 (-47) 0 else map angle 0 42 0 80

/-- The servo angle of a requested steering angle: bias, clamp, mapping. -/
def servoAngle (angle : ℚ) : ℚ :=
  let angle := angle + cBias
  steeringToServo (clamp angle (cBias - cAngleLimit) (cBias + cAngleLimit))

/-- The pulse width in milliseconds of a servo angle. -/
def servoPulse (angle : ℚ) : ℚ := map angle (-90) 90 (5 / 10) (25 / 10)

/-- The duty of a pulse of `t` milliseconds in the 20 ms period. -/
def servoDuty (t : ℚ) : Nat := toUInt (t / 20 * ((1 <<< cServoResolution : Nat) - 1))

theorem servoDuty_eq (t : ℚ) : servoDuty t = toUInt (t / 20 * 65535) := by
  unfold servoDuty
  norm_num [cServoResolution, Nat.shiftLeft_eq]

def servoWriteAngle (angle : ℚ) (l : Ledc) : Ledc :=
  ledcWrite 0 (servoDuty (servoPulse (servoAngle angle))) l

def servoWritePixel (trackMidPoint : Int) (l : Ledc) : Ledc :=
  servoWriteAngle (Arduino.map trackMidPoint 0 128 (toInt (-cAngleLimit)) (toInt cAngleLimit)) l

/-- The channel keeps its duty (0 at power-on) until `servoWriteAngle` writes it. -/
def initServo (l : Ledc) : Ledc := servoWriteAngle 0 l

theorem toInt_cAngleLimit : toInt (-cAngleLimit) = -42 ∧ toInt cAngleLimit = 42 := by
  have h1 : -cAngleLimit = ((-42 : Int) : ℚ) := by norm_num [cAngleLimit]
  have h2 : cAngleLimit = ((42 : Int) : ℚ) := by norm_num [cAngleLimit]
  exact ⟨by rw [h1]; exact trunc_intCast _, by rw [h2]; exact trunc_intCast _⟩

/-- The duty of the wheels straight ahead. -/
def centreDuty : Nat := servoDuty (servoPulse (servoAngle 0))

theorem servoWritePixel_centre (l : Ledc) : servoWritePixel 64 l = ledcWrite 0 centreDuty l := by
  obtain ⟨hl, hr⟩ := toInt_cAngleLimit
  have h0 : Arduino.map 64 0 128 (-42) 42 = 0 := by decide
  rw [servoWritePixel, hl, hr, h0]
  rfl

end BuptCar
