import BuptCar.Dep.CommandParser
import BuptCar.Lib.Machine
import Mathlib.Tactic.IntervalCases

/-!
# Bluetooth commands

`parseCommands_boost`, `parseCommands_power`, `parseCommands_turning` and `parseCommands_other` say
what a command of each kind does, and together cover all integers. The kinds do not interfere: the
servo's duty depends on the last steering command (`servo_run`), motors and boost flag on the
commands in `2..9` (`drive_run`).
-/

namespace BuptCar.Chassis

/-! ## One command -/

/-- The duties of a power command, under the boost flag when it arrives. -/
def powerPair (command : Int) (boost : Bool) : Nat × Nat :=
  if command = 4 then (0, if boost then 60000 else 30000)
  else if command = 6 then (65535, 65535)
  else if command = 8 then (if boost then 60000 else 30000, 0)
  else (0, 0)

theorem parseCommands_boost {command : Int} {c : Chassis} (h : command = 2 ∨ command = 3) :
    c.parseCommands command = { c with boost := decide (command = 2) } := by
  rcases h with rfl | rfl <;> rfl

theorem throttle_eq (front boost : Bool) {c : Chassis} (h : c.maxResolution = 65535) :
    c.motorControl front front (if boost then cDefaultThrottle * 2 else cDefaultThrottle)
      (if boost then cDefaultThrottle * 2 else cDefaultThrottle) =
      c.drive (pair front (if boost then 60000 else 30000)) := by
  rw [motorControl_eq _ _ h, clamp_of_mem]
  · cases boost
    · simp [cDefaultThrottle]
    · have h2 : cDefaultThrottle * 2 = 60000 := by norm_num [cDefaultThrottle]
      simp [h2]
  · cases boost <;> norm_num [cDefaultThrottle]
  · cases boost <;> norm_num [cDefaultThrottle]

theorem parseCommands_power {command : Int} {c : Chassis} (h4 : 4 ≤ command) (h9 : command ≤ 9)
    (h : c.maxResolution = 65535) :
    c.parseCommands command = c.drive (powerPair command c.boost) := by
  interval_cases command
  · exact throttle_eq false c.boost h
  · rfl
  · exact motorBrake_eq h
  · rfl
  · exact throttle_eq true c.boost h
  · rfl

theorem parseCommands_turning {command : Int} {c : Chassis} (h : 76 ≤ command) :
    c.parseCommands command =
      { c with ledc := servoWriteAngle (steeringAngle command) c.ledc } := by
  have hne : command ≠ -1 ∧ command ≠ 2 ∧ command ≠ 3 ∧ ¬command ≤ 9 := by omega
  simp [parseCommands, COMMAND_BOOST, COMMAND_BOOST_CANCEL, BIAS_POWER_LEVEL_END,
    BIAS_TURNING_START, hne, h]

theorem parseCommands_other {command : Int} {c : Chassis}
    (h : command < 2 ∨ 9 < command ∧ command < 76) : c.parseCommands command = c := by
  have hne : command ≠ 2 ∧ command ≠ 3 ∧ ¬(4 ≤ command ∧ command ≤ 9) ∧ ¬76 ≤ command := by omega
  simp [parseCommands, COMMAND_BOOST, COMMAND_BOOST_CANCEL, BIAS_POWER_LEVEL_START,
    BIAS_POWER_LEVEL_END, BIAS_TURNING_START, hne]

/-- Every command is of one of the four kinds. -/
theorem command_kinds (command : Int) :
    (command = 2 ∨ command = 3) ∨ (4 ≤ command ∧ command ≤ 9) ∨ 76 ≤ command ∨
      (command < 2 ∨ 9 < command ∧ command < 76) := by omega

theorem parseCommands_maxResolution {command : Int} {c : Chassis} (h : c.maxResolution = 65535) :
    (c.parseCommands command).maxResolution = 65535 := by
  rcases command_kinds command with hk | ⟨h4, h9⟩ | hk | hk
  · rw [parseCommands_boost hk, h]
  · rw [parseCommands_power h4 h9 h, drive_maxResolution, h]
  · rw [parseCommands_turning hk, h]
  · rw [parseCommands_other hk, h]

/-! ## Steering commands -/

def isTurning (command : Int) : Bool := decide (76 ≤ command)

def turningDuty (command : Int) : Nat := servoDuty (servoPulse (servoAngle (steeringAngle command)))

theorem parseCommands_servo {command : Int} {c : Chassis} (h : c.maxResolution = 65535) :
    (c.parseCommands command).ledc 0 =
      if isTurning command then turningDuty command else c.ledc 0 := by
  unfold isTurning
  rcases command_kinds command with hk | ⟨h4, h9⟩ | hk | hk
  · rw [parseCommands_boost hk, if_neg (by simp; omega)]
  · rw [parseCommands_power h4 h9 h, drive_servo, if_neg (by simp; omega)]
  · rw [parseCommands_turning hk, if_pos (by simpa using hk)]
    exact ledcWrite_same 0 (turningDuty command) c.ledc
  · rw [parseCommands_other hk, if_neg (by simp; omega)]

/-! ## Power and boost commands -/

def isDrive (command : Int) : Bool := decide (2 ≤ command ∧ command ≤ 9)

structure SameDrive (c d : Chassis) : Prop where
  left : c.left = d.left
  right : c.right = d.right
  boost : c.boost = d.boost

theorem SameDrive.refl (c : Chassis) : SameDrive c c := ⟨rfl, rfl, rfl⟩

theorem SameDrive.symm {c d : Chassis} (h : SameDrive c d) : SameDrive d c :=
  ⟨h.left.symm, h.right.symm, h.boost.symm⟩

theorem SameDrive.trans {c d e : Chassis} (h1 : SameDrive c d) (h2 : SameDrive d e) :
    SameDrive c e :=
  ⟨h1.left.trans h2.left, h1.right.trans h2.right, h1.boost.trans h2.boost⟩

/-- The servo's channel is none of the motors'. -/
theorem sameDrive_servoWriteAngle (angle : ℚ) (c : Chassis) :
    SameDrive { c with ledc := servoWriteAngle angle c.ledc } c := ⟨rfl, rfl, rfl⟩

/-- Other commands leave motors and boost flag alone. -/
theorem sameDrive_of_not_isDrive {command : Int} (hd : isDrive command = false) (c : Chassis) :
    SameDrive (c.parseCommands command) c := by
  have hd' : ¬(2 ≤ command ∧ command ≤ 9) := by simpa [isDrive] using hd
  rcases command_kinds command with hk | hk | hk | hk
  · omega
  · omega
  · rw [parseCommands_turning hk]
    exact sameDrive_servoWriteAngle _ c
  · rw [parseCommands_other hk]
    exact .refl c

/-- What a command does to motors and boost flag depends on these alone. -/
theorem SameDrive.parseCommands {c d : Chassis} (h : SameDrive c d) (command : Int)
    (hc : c.maxResolution = 65535) (hd : d.maxResolution = 65535) :
    SameDrive (c.parseCommands command) (d.parseCommands command) := by
  rcases command_kinds command with hk | ⟨h4, h9⟩ | hk | hk
  · rw [parseCommands_boost hk, parseCommands_boost hk]
    exact ⟨h.left, h.right, rfl⟩
  · rw [parseCommands_power h4 h9 hc, parseCommands_power h4 h9 hd, h.boost]
    exact ⟨rfl, rfl, h.boost⟩
  · rw [parseCommands_turning hk, parseCommands_turning hk]
    exact (sameDrive_servoWriteAngle _ c).trans (h.trans (sameDrive_servoWriteAngle _ d).symm)
  · rw [parseCommands_other hk, parseCommands_other hk]
    exact h

/-! ## Runs -/

/-- The command interpreter, from the state `initServo` and `initMotor` leave. -/
def commandMachine : Machine Chassis Int where
  init := setup
  step c command := c.parseCommands command

theorem commandMachine_maxResolution (xs : List Int) :
    (commandMachine.run xs).maxResolution = 65535 :=
  Machine.run_invariant (M := commandMachine) (P := fun c => c.maxResolution = 65535)
    (initMotor_maxResolution _) (fun _ _ h => parseCommands_maxResolution h) xs

/-- The servo holds the duty of the last steering command. -/
theorem servo_run (xs : List Int) : (commandMachine.run xs).ledc 0 =
    (((xs.filter isTurning).getLast?).map turningDuty).getD (setup.ledc 0) := by
  induction xs using List.reverseRecOn with
  | nil => rfl
  | append_singleton xs x ih =>
    rw [Machine.run_concat]
    show ((commandMachine.run xs).parseCommands x).ledc 0 = _
    rw [parseCommands_servo (commandMachine_maxResolution xs), List.filter_append]
    cases hx : isTurning x <;> simp [hx, ih]

/-- Motors and boost flag after a run are those after its boost and power commands. -/
theorem drive_run (xs : List Int) :
    SameDrive (commandMachine.run xs) (commandMachine.run (xs.filter isDrive)) := by
  induction xs using List.reverseRecOn with
  | nil => exact .refl _
  | append_singleton xs x ih =>
    rw [Machine.run_concat, List.filter_append]
    cases hx : isDrive x with
    | false =>
      have hf : [x].filter isDrive = [] := by simp [hx]
      rw [hf, List.append_nil]
      exact (sameDrive_of_not_isDrive hx _).trans ih
    | true =>
      have hf : [x].filter isDrive = [x] := by simp [hx]
      rw [hf, Machine.run_concat]
      exact ih.parseCommands x (commandMachine_maxResolution _) (commandMachine_maxResolution _)

/-- Commands behind a power command that are none leave the motors as it set them. -/
theorem power_run (pre post : List Int) {p : Int} (h4 : 4 ≤ p) (h9 : p ≤ 9)
    (hpost : ∀ q ∈ post, ¬(4 ≤ q ∧ q ≤ 9)) :
    (commandMachine.run (pre ++ p :: post)).left = powerPair p (commandMachine.run pre).boost ∧
      (commandMachine.run (pre ++ p :: post)).right =
        powerPair p (commandMachine.run pre).boost := by
  rw [Machine.run_append, Machine.runFrom_cons]
  have hp : commandMachine.step (commandMachine.run pre) p =
      (commandMachine.run pre).drive (powerPair p (commandMachine.run pre).boost) :=
    parseCommands_power h4 h9 (commandMachine_maxResolution pre)
  rw [hp]
  generalize powerPair p (commandMachine.run pre).boost = duties
  refine Machine.runFrom_invariant_mem (M := commandMachine)
    (P := fun c => c.left = duties ∧ c.right = duties) ⟨drive_left .., drive_right ..⟩ ?_
  intro c q hq h
  show (c.parseCommands q).left = _ ∧ (c.parseCommands q).right = _
  rcases command_kinds q with hk | hk | hk | hk
  · rw [parseCommands_boost hk]
    exact h
  · exact absurd hk (hpost q hq)
  · rw [parseCommands_turning hk]
    exact h
  · rw [parseCommands_other hk]
    exact h

/-- **Steering and driving are independent.** Runs with the same last steering command end with
the same servo duty; runs with the same boost and power commands end with the same motors and boost
flag; the motors are those of the last power command, under the boost flag when it arrived. -/
theorem commands_independent :
    (∀ xs ys : List Int, (xs.filter isTurning).getLast? = (ys.filter isTurning).getLast? →
      (commandMachine.run xs).ledc 0 = (commandMachine.run ys).ledc 0) ∧
    (∀ xs ys : List Int, xs.filter isDrive = ys.filter isDrive →
      SameDrive (commandMachine.run xs) (commandMachine.run ys)) ∧
    (∀ (pre post : List Int) (p : Int), 4 ≤ p → p ≤ 9 → (∀ q ∈ post, ¬(4 ≤ q ∧ q ≤ 9)) →
      (commandMachine.run (pre ++ p :: post)).left =
        powerPair p (commandMachine.run pre).boost ∧
      (commandMachine.run (pre ++ p :: post)).right =
        powerPair p (commandMachine.run pre).boost) := by
  refine ⟨fun xs ys h => ?_, fun xs ys h => ?_, fun pre post p h4 h9 hpost => ?_⟩
  · rw [servo_run, servo_run, h]
  · have hy := drive_run ys
    have hx := drive_run xs
    rw [h] at hx
    exact hx.trans hy.symm
  · exact power_run pre post h4 h9 hpost

/-- Forward power under boost, then steering and the end of the boost. -/
theorem commands_independent_boosted :
    (commandMachine.run [2, 8, 90, 3]).left = (60000, 0) :=
  (commands_independent.2.2 [2] [90, 3] 8 (by decide) (by decide) (by decide)).1

end BuptCar.Chassis
