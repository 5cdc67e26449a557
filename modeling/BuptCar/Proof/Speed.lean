import BuptCar.Task2
import Mathlib.Data.List.Chain

/-!
# The divisor of the speed measurement

`getSpeed` divides by the time since its previous call. The difference of two clock readings is
zero where they agree modulo `2 ^ 32` (`divisor_eq_zero`), and an error computed from such a
quotient never leaves `motorPID` again (`finite_motorForward`).

So the calls of `motorForward` divide by zero nowhere, and `motorPID` stays finite, exactly if no
reading agrees with the one before it, the first with 0 (`speed_measured_iff`).
-/

namespace BuptCar

namespace SpeedControl

theorem motorCountInterrupt_lastTime (s : SpeedControl) (pulses : Nat) :
    (motorCountInterrupt^[pulses] s).lastTime = s.lastTime := by
  induction pulses with
  | zero => rfl
  | succ n ih =>
    rw [Function.iterate_succ_apply']
    exact ih

theorem readCount_deltaTime {s : SpeedControl} {millis previous : Nat}
    (h : s.lastTime = previous % 2 ^ 32) :
    (s.readCount millis).2.deltaTime = 0 ↔ previous % 2 ^ 32 = millis % 2 ^ 32 := by
  show (millis % 2 ^ 32 + 2 ^ 32 - s.lastTime) % 2 ^ 32 = 0 ↔ _
  rw [h]
  omega

theorem readCount_eq_none (s : SpeedControl) (millis : Nat) :
    (s.readCount millis).1 = none ↔ (s.readCount millis).2.deltaTime = 0 := by
  show (s.readCount millis).2.quotient = none ↔ _
  unfold quotient
  split
  · rename_i h
    exact ⟨fun _ => h, fun _ => rfl⟩
  · rename_i h
    exact ⟨fun hs => by simp at hs, fun hz => absurd hz h⟩

end SpeedControl

theorem Chassis.motorForward_finite {aim : ℚ} (haim : aim ≠ 0) (speed : Option ℚ) (undef : Nat)
    (c : Chassis) : (c.motorForward aim speed undef).motorPID.isSome ↔
      c.motorPID.isSome ∧ speed.isSome := by
  obtain ⟨ledc, currentPower, maxResolution, motorPID, boost⟩ := c
  rw [motorForward, if_neg haim]
  cases motorPID with
  | none => exact ⟨fun h => absurd h Bool.false_ne_true, fun h => absurd h.1 Bool.false_ne_true⟩
  | some pid =>
    cases speed with
    | none => exact ⟨fun h => absurd h Bool.false_ne_true, fun h => absurd h.2 Bool.false_ne_true⟩
    | some speed => exact ⟨fun _ => ⟨rfl, rfl⟩, fun _ => rfl⟩

namespace Car

/-! ## One call -/

/-- The `deltaTime` by which a call of `motorForward` divides, if it measures the speed. -/
def divisor (c : Car) (inp : Inputs) : Nat :=
  ((SpeedControl.motorCountInterrupt^[inp.pulses] c.speedControl).readCount
    inp.speedMillis).2.deltaTime

/-- `lastTime` is the clock at the uptime `previous`. -/
def Clocked (previous : Nat) (c : Car) : Prop := c.speedControl.lastTime = previous % 2 ^ 32

section
variable {previous : Nat} {aim : ℚ} {inp : Inputs} {c : Car}

theorem divisor_eq_zero (h : Clocked previous c) :
    c.divisor inp = 0 ↔ previous % 2 ^ 32 = inp.speedMillis % 2 ^ 32 :=
  SpeedControl.readCount_deltaTime
    ((SpeedControl.motorCountInterrupt_lastTime c.speedControl inp.pulses).trans h)

theorem motorForward_speedControl (aim : ℚ) (inp : Inputs) (c : Car) :
    (c.motorForward aim inp).speedControl =
      let s := SpeedControl.motorCountInterrupt^[inp.pulses] c.speedControl
      if aim = 0 then s else (s.getSpeed inp.speedMillis).2 := rfl

theorem motorForward_chassis (aim : ℚ) (inp : Inputs) (c : Car) :
    (c.motorForward aim inp).chassis = c.chassis.motorForward aim
      ((SpeedControl.motorCountInterrupt^[inp.pulses] c.speedControl).getSpeed inp.speedMillis).1
      inp.undef.toNat := rfl

theorem clocked_motorForward (haim : aim ≠ 0) (c : Car) :
    Clocked inp.speedMillis (c.motorForward aim inp) := by
  rw [Clocked, motorForward_speedControl]
  dsimp only
  rw [if_neg haim]
  rfl

/-- Without an aim the clock is not read. -/
theorem Clocked.motorForward_zero (h : Clocked previous c) :
    Clocked previous (c.motorForward 0 inp) := by
  rw [Clocked, motorForward_speedControl]
  dsimp only
  rw [if_pos rfl]
  exact (SpeedControl.motorCountInterrupt_lastTime c.speedControl inp.pulses).trans h

theorem finite_motorForward (haim : aim ≠ 0) :
    (c.motorForward aim inp).chassis.motorPID.isSome ↔
      c.chassis.motorPID.isSome ∧ c.divisor inp ≠ 0 := by
  refine (Chassis.motorForward_finite haim _ _ c.chassis).trans (and_congr_right' ?_)
  rw [← Option.ne_none_iff_isSome]
  exact not_congr (SpeedControl.readCount_eq_none _ _)

theorem finite_motorForward_zero :
    (c.motorForward 0 inp).chassis.motorPID.isSome ↔ c.chassis.motorPID.isSome := by
  rw [motorForward_chassis, Chassis.motorForward_zero, Chassis.drive_motorPID]

end

/-! ## Runs of calls -/

/-- Calls of `motorForward` in any order, from power-on. -/
def forwardMachine (bestRecord : ExplosureRecord) : Machine Car (ℚ × Inputs) where
  init := setup bestRecord
  step := fun c call => c.motorForward call.1 call.2

theorem clocked_setup (bestRecord : ExplosureRecord) : Clocked 0 (setup bestRecord) :=
  (Nat.zero_mod _).symm

/-- Labels the divisions by zero. -/
def zeroDivision (c : Car) (call : ℚ × Inputs) : Option Unit :=
  if call.1 ≠ 0 ∧ c.divisor call.2 = 0 then some () else none

theorem zeroDivision_zero (c : Car) (inp : Inputs) : zeroDivision c (0, inp) = none :=
  if_neg fun h => h.1 rfl

theorem zeroDivision_eq_none {aim : ℚ} (haim : aim ≠ 0) (c : Car) (inp : Inputs) :
    zeroDivision c (aim, inp) = none ↔ c.divisor inp ≠ 0 := by
  unfold zeroDivision
  split
  · rename_i h
    exact ⟨fun hs => by simp at hs, fun hne => absurd h.2 hne⟩
  · rename_i h
    exact ⟨fun _ hz => h ⟨haim, hz⟩, fun _ => rfl⟩

/-- The uptimes at which the calls measure the speed. -/
def readings (calls : List (ℚ × Inputs)) : List Nat :=
  (calls.filter fun call => call.1 ≠ 0).map fun call => call.2.speedMillis

/-- The clock shows two different values at the two uptimes. -/
def Apart (s t : Nat) : Prop := s % 2 ^ 32 ≠ t % 2 ^ 32

theorem readings_zero (inp : Inputs) (calls : List (ℚ × Inputs)) :
    readings ((0, inp) :: calls) = readings calls := rfl

theorem readings_cons {aim : ℚ} (haim : aim ≠ 0) (inp : Inputs) (calls : List (ℚ × Inputs)) :
    readings ((aim, inp) :: calls) = inp.speedMillis :: readings calls := by
  simp [readings, haim]

section
variable (bestRecord : ExplosureRecord)

/-- No call divides by zero exactly if the clock has moved between any two readings. -/
theorem labelsFrom_zeroDivision {c : Car} {previous : Nat} (h : Clocked previous c)
    (calls : List (ℚ × Inputs)) :
    (forwardMachine bestRecord).labelsFrom zeroDivision c calls = [] ↔
      (previous :: readings calls).IsChain Apart := by
  induction calls generalizing c previous with
  | nil => exact ⟨fun _ => List.isChain_singleton _, fun _ => rfl⟩
  | cons call calls ih =>
    obtain ⟨aim, inp⟩ := call
    rw [Machine.labelsFrom, List.append_eq_nil_iff, Option.toList_eq_nil_iff]
    by_cases haim : aim = 0
    · subst haim
      rw [readings_zero, zeroDivision_zero]
      exact (and_iff_right rfl).trans (ih h.motorForward_zero)
    · rw [readings_cons haim, List.isChain_cons_cons, zeroDivision_eq_none haim]
      exact and_congr (not_congr (divisor_eq_zero h)) (ih (clocked_motorForward haim c))

theorem labels_zeroDivision (calls : List (ℚ × Inputs)) :
    (forwardMachine bestRecord).labels zeroDivision calls = [] ↔
      (0 :: readings calls).IsChain Apart :=
  labelsFrom_zeroDivision bestRecord (clocked_setup bestRecord) calls

/-- The errors accumulated stay finite exactly as long as no call divides by zero. -/
theorem finite_runFrom (c : Car) (calls : List (ℚ × Inputs)) :
    ((forwardMachine bestRecord).runFrom c calls).chassis.motorPID.isSome ↔
      c.chassis.motorPID.isSome ∧
        (forwardMachine bestRecord).labelsFrom zeroDivision c calls = [] := by
  induction calls generalizing c with
  | nil => exact (and_iff_left rfl).symm
  | cons call calls ih =>
    obtain ⟨aim, inp⟩ := call
    rw [Machine.runFrom_cons, ih, Machine.labelsFrom, List.append_eq_nil_iff,
      Option.toList_eq_nil_iff, ← and_assoc]
    refine and_congr_left' ?_
    show (c.motorForward aim inp).chassis.motorPID.isSome ↔ _
    by_cases haim : aim = 0
    · subst haim
      rw [finite_motorForward_zero, zeroDivision_zero]
      exact (and_iff_left rfl).symm
    · rw [finite_motorForward haim, zeroDivision_eq_none haim]

end

/-- The measurements of a run of `motorForward`: no call that measures divides by zero, and the
errors accumulated are finite. -/
structure Measured (bestRecord : ExplosureRecord) (calls : List (ℚ × Inputs)) : Prop where
  divisor : ∀ pre aim inp post, calls = pre ++ (aim, inp) :: post → aim ≠ 0 →
    ((forwardMachine bestRecord).run pre).divisor inp ≠ 0
  error : ∃ pid, ((forwardMachine bestRecord).run calls).chassis.motorPID = some pid

theorem measured_iff_labels (bestRecord : ExplosureRecord) (calls : List (ℚ × Inputs)) :
    Measured bestRecord calls ↔ (forwardMachine bestRecord).labels zeroDivision calls = [] := by
  have hlabels := (forwardMachine bestRecord).labels_eq_nil_iff zeroDivision calls
  have hrun := finite_runFrom bestRecord (setup bestRecord) calls
  constructor
  · rintro ⟨-, pid, hpid⟩
    exact (hrun.1 (Option.isSome_iff_exists.2 ⟨pid, hpid⟩)).2
  · intro h
    refine ⟨fun pre aim inp post heq haim hz => ?_, Option.isSome_iff_exists.1 (hrun.2 ⟨rfl, h⟩)⟩
    have hnone := hlabels.1 h pre (aim, inp) post heq
    exact (zeroDivision_eq_none haim _ inp).1 hnone hz

/-- **The speed is measured without a division by zero iff the clock moves between the
measurements**, and before the first one. -/
theorem speed_measured_iff (bestRecord : ExplosureRecord) (calls : List (ℚ × Inputs)) :
    Measured bestRecord calls ↔ (0 :: readings calls).IsChain Apart :=
  (measured_iff_labels bestRecord calls).trans
    (labels_zeroDivision bestRecord calls)

/-- The inputs of a call with `pulses` interrupts since the previous one. -/
def speedInputs (speedMillis pulses : Nat) : Inputs where
  millis := speedMillis
  motorOn := true
  resetFrame := fun _ => ⟨0, by decide⟩
  frame := fun _ => ⟨0, by decide⟩
  pulses := pulses
  speedMillis := speedMillis
  rawBuff := fun _ => 0
  btConnected := false
  btRecieve := -1
  undef := 0

/-- **Two calls in one millisecond divide by zero.** -/
theorem speed_not_measured : ¬∀ (bestRecord : ExplosureRecord) (calls : List (ℚ × Inputs)),
    (∀ call ∈ calls, call.1 ≠ 0) → (readings calls).IsChain (· ≤ ·) →
      Measured bestRecord calls := by
  intro h
  have hreadings : readings [(1 / 2, speedInputs 1000 3), (1 / 2, speedInputs 1000 0)] =
      [1000, 1000] := by
    rw [readings_cons (by norm_num), readings_cons (by norm_num)]
    rfl
  have hm := h ⟨0, 0, 0, 0, false, 0⟩ [(1 / 2, speedInputs 1000 3), (1 / 2, speedInputs 1000 0)]
    (by simp) (by rw [hreadings]; decide)
  rw [measured_iff_labels, labels_zeroDivision, hreadings] at hm
  simp [Apart] at hm

end Car

end BuptCar
