import BuptCar.Dep.AutoTrack

/-!
# The steering path

From a detected position to the servo's duty: PID, truncation, the integer `map`, bias, clamp, the
two slopes of `steeringToServo`, pulse width, truncation. Every stage is monotone
(`servoAngle_mono`, `servoDuty_mono`, `steeredPixel_mono`), and bias and clamp leave the pulse
within 0.5 ms and 2.5 ms with room for the last truncation (`servoPulse_mem`, `pulseOfDuty_mem`).
The clamp's limits are shifted by the bias, so the mapped angle can leave the range the mapping is
declared for (`servo_range_iff`).
-/

namespace BuptCar

/-! ## The stages -/

theorem steeringToServo_mono : Monotone steeringToServo := by
  refine monotone_ite_lt (map_mono (by norm_num) (by norm_num))
    (map_mono (by norm_num) (by norm_num)) ?_
  norm_num [map]

theorem servoAngle_mono : Monotone servoAngle := by
  intro v w h
  apply steeringToServo_mono
  exact clamp_mono (by norm_num [cBias, cAngleLimit]) (add_le_add_left h cBias)

theorem servoPulse_mono : Monotone servoPulse := map_mono (by norm_num) (by norm_num)

theorem servoDuty_mono : Monotone servoDuty := by
  intro v w h
  rw [servoDuty_eq, servoDuty_eq]
  apply toUInt_mono
  have h20 : v / 20 ≤ w / 20 := div_le_div_of_nonneg_right h (by norm_num)
  exact mul_le_mul_of_nonneg_right h20 (by norm_num)

/-- The clamped angle lies between the bounds' images. -/
theorem servoAngle_mem (angle : ℚ) :
    steeringToServo (-40) ≤ servoAngle angle ∧ servoAngle angle ≤ steeringToServo 44 := by
  have hle : cBias - cAngleLimit ≤ cBias + cAngleLimit := by norm_num [cBias, cAngleLimit]
  have hlo : cBias - cAngleLimit ≤
      clamp (angle + cBias) (cBias - cAngleLimit) (cBias + cAngleLimit) := le_clamp hle
  have hhi : clamp (angle + cBias) (cBias - cAngleLimit) (cBias + cAngleLimit) ≤
      cBias + cAngleLimit := clamp_le hle
  refine ⟨steeringToServo_mono (le_trans ?_ hlo), steeringToServo_mono (le_trans hhi ?_)⟩
  · norm_num [cBias, cAngleLimit]
  · norm_num [cBias, cAngleLimit]

theorem servoPulse_mem (angle : ℚ) :
    1 ≤ servoPulse (servoAngle angle) ∧ servoPulse (servoAngle angle) ≤ 25 / 10 := by
  obtain ⟨hlo, hhi⟩ := servoAngle_mem angle
  refine ⟨le_trans ?_ (servoPulse_mono hlo), le_trans (servoPulse_mono hhi) ?_⟩
  · norm_num [servoPulse, steeringToServo, map]
  · norm_num [servoPulse, steeringToServo, map]

theorem steeredPixel_mono {pid : Pid} (h : 0 ≤ pid.Kp + pid.Ki + pid.Kd) {p q : Int}
    (hpq : p ≤ q) : (steeredPixel pid p).1 ≤ (steeredPixel pid q).1 := by
  apply trunc_mono
  have he : ((p - 64 : Int) : ℚ) ≤ ((q - 64 : Int) : ℚ) := by exact_mod_cast (by omega)
  exact add_le_add_left (Pid.update_pidValue_mono h he) 64

/-! ## The declared range -/

/-- Beyond 42 degrees the mapping leaves its declared output range. -/
theorem steeringToServo_gt {v : ℚ} (h : 42 < v) : 80 < steeringToServo v := by
  unfold steeringToServo map
  rw [if_neg (by linarith)]
  linarith

theorem servoAngle_gt {angle : ℚ} (h : 40 < angle) : 80 < servoAngle angle := by
  apply steeringToServo_gt
  -- the clamp is at 44, its limits being shifted by the bias
  rw [clamp_eq_max_min (by norm_num [cBias, cAngleLimit])]
  refine lt_max_of_lt_right (lt_min ?_ ?_)
  · norm_num [cBias]
    linarith
  · norm_num [cBias, cAngleLimit]

/-- **The servo angle is in the mapping's declared range iff the request is at most 40 degrees.** -/
theorem servo_range_iff (angle : ℚ) :
    (-47 ≤ servoAngle angle ∧ servoAngle angle ≤ 80) ↔ angle ≤ 40 := by
  constructor
  · rintro ⟨-, h⟩
    by_contra hlt
    exact absurd (servoAngle_gt (not_le.1 hlt)) (not_lt.2 h)
  · intro h
    have hlo : -47 ≤ steeringToServo (-40) := by norm_num [steeringToServo, map]
    have hhi : servoAngle 40 = 80 := by
      norm_num [servoAngle, steeringToServo, clamp, map, cBias, cAngleLimit]
    exact ⟨hlo.trans (servoAngle_mem angle).1, (servoAngle_mono h).trans hhi.le⟩

/-- **A request of the full 42 degrees leaves the range.** -/
theorem servo_range_exceeded :
    ¬∀ angle, -47 ≤ servoAngle angle ∧ servoAngle angle ≤ 80 := by
  intro h
  exact absurd (h 42).2 (not_le.2 (servoAngle_gt (by norm_num)))

/-! ## The duty written -/

/-- The duty in channel 0 after `servoWritePixel(angelPID.update(trackMidPixel - 64) + 64)`. -/
def steeringDuty (pid : Pid) (l : Ledc) (trackMidPixel : Int) : Nat :=
  servoWritePixel (steeredPixel pid trackMidPixel).1 l 0

theorem steeringDuty_eq (pid : Pid) (l : Ledc) (p : Int) :
    steeringDuty pid l p = servoDuty (servoPulse (servoAngle
      (Arduino.map (steeredPixel pid p).1 0 128 (toInt (-cAngleLimit)) (toInt cAngleLimit)))) := by
  simp [steeringDuty, servoWritePixel, servoWriteAngle]

theorem steeringDuty_mono {pid : Pid} (h : 0 ≤ pid.Kp + pid.Ki + pid.Kd) (l : Ledc) {p q : Int}
    (hpq : p ≤ q) : steeringDuty pid l p ≤ steeringDuty pid l q := by
  rw [steeringDuty_eq, steeringDuty_eq]
  obtain ⟨hl, hr⟩ := toInt_cAngleLimit
  have hmap := Arduino.map_mono (show (0 : Int) < 128 by decide)
    (show toInt (-cAngleLimit) ≤ toInt cAngleLimit by omega) (steeredPixel_mono h hpq)
  exact servoDuty_mono (servoPulse_mono (servoAngle_mono (by exact_mod_cast hmap)))

/-- A 16-bit duty as a pulse width in milliseconds of the 20 ms period. -/
def pulseOfDuty (duty : Nat) : ℚ := duty / 65535 * 20

/-- Truncation shortens a pulse by less than one step of the duty. -/
theorem pulseOfDuty_servoDuty {t : ℚ} (h : 0 ≤ t) :
    t - 20 / 65535 < pulseOfDuty (servoDuty t) ∧ pulseOfDuty (servoDuty t) ≤ t := by
  have hnn : 0 ≤ t / 20 * 65535 := by positivity
  have hcast : ((servoDuty t : Nat) : ℚ) = ((trunc (t / 20 * 65535) : Int) : ℚ) := by
    rw [servoDuty_eq, toUInt]
    exact_mod_cast Int.toNat_of_nonneg (trunc_nonneg hnn)
  have hle := trunc_le_self hnn
  have hlt := lt_trunc_add_one hnn
  rw [pulseOfDuty, hcast]
  constructor <;> linarith

theorem pulseOfDuty_mem (pid : Pid) (l : Ledc) (p : Int) :
    5 / 10 ≤ pulseOfDuty (steeringDuty pid l p) ∧
      pulseOfDuty (steeringDuty pid l p) ≤ 25 / 10 := by
  rw [steeringDuty_eq]
  obtain ⟨hlo, hhi⟩ := servoPulse_mem
    (Arduino.map (steeredPixel pid p).1 0 128 (toInt (-cAngleLimit)) (toInt cAngleLimit))
  obtain ⟨h1, h2⟩ := pulseOfDuty_servoDuty (le_trans zero_le_one hlo)
  constructor <;> linarith

/-! ## Every reachable state of `angelPID` -/

/-- **Steering is monotone** in the detected position from every state that updates and resets of
`angelPID` lead to, and always within the servo's pulse range. -/
theorem steering_monotone (ops : List Pid.Op) (l : Ledc) :
    (∀ p q, p ≤ q → steeringDuty (angelPID.machine.run ops) l p ≤
        steeringDuty (angelPID.machine.run ops) l q) ∧
      ∀ p, 5 / 10 ≤ pulseOfDuty (steeringDuty (angelPID.machine.run ops) l p) ∧
        pulseOfDuty (steeringDuty (angelPID.machine.run ops) l p) ≤ 25 / 10 := by
  refine ⟨fun p q => steeringDuty_mono ?_ l, pulseOfDuty_mem _ l⟩
  obtain ⟨hp, hi, hd⟩ := Pid.run_gains angelPID ops
  rw [hp, hi, hd]
  norm_num [angelPID, Pid.new, angleKp, angleKi, angleKd]

end BuptCar
