import BuptCar.Board
import BuptCar.Lib.Machine
import Mathlib.Tactic.Ring

/-!
# `dep/pid.h`

The class `pid`, over exact rationals. `update` returns `PID_value`, so its result is the field
`pidValue` of the new object. `Pid.machine p` is the object `p` under any sequence of calls of its
member functions.
-/

namespace BuptCar

structure Pid where
  Kp : ℚ
  Ki : ℚ
  Kd : ℚ
  P : ℚ
  I : ℚ
  D : ℚ
  pidValue : ℚ
  previousError : ℚ

namespace Pid

/-- The constructor; the other fields have default member initialisers. -/
def new (kp ki kd : ℚ) : Pid :=
  { Kp := kp, Ki := ki, Kd := kd, P := 0, I := 0, D := 0, pidValue := 0, previousError := 0 }

def update (p : Pid) (error : ℚ) (t : ℚ := 1) : Pid :=
  let P := error
  let I := p.I + error
  let D := error - p.previousError
  { p with
    P := P, I := I, D := D
    pidValue := (p.Kp * P + p.Ki * I + p.Kd * D) * t
    previousError := error }

def reset (p : Pid) : Pid := { p with I := 0, previousError := 0 }

section
variable (p : Pid) (e t : ℚ)

@[simp] theorem update_I : (p.update e t).I = p.I + e := rfl
@[simp] theorem update_previousError : (p.update e t).previousError = e := rfl
@[simp] theorem update_Kp : (p.update e t).Kp = p.Kp := rfl
@[simp] theorem update_Ki : (p.update e t).Ki = p.Ki := rfl
@[simp] theorem update_Kd : (p.update e t).Kd = p.Kd := rfl

theorem update_pidValue :
    (p.update e t).pidValue =
      (p.Kp * e + p.Ki * (p.I + e) + p.Kd * (e - p.previousError)) * t := rfl

@[simp] theorem reset_Kp : p.reset.Kp = p.Kp := rfl
@[simp] theorem reset_Ki : p.reset.Ki = p.Ki := rfl
@[simp] theorem reset_Kd : p.reset.Kd = p.Kd := rfl

end

/-- A call of one of the public member functions. -/
inductive Op
  | update (error t : ℚ)
  | reset

def applyOp (p : Pid) : Op → Pid
  | .update error t => p.update error t
  | .reset => p.reset

/-- The object `p` and the calls on it. -/
def machine (p : Pid) : Machine Pid Op where
  init := p
  step := applyOp

/-- No member function changes the gains. -/
theorem run_gains (p : Pid) (ops : List Op) :
    (p.machine.run ops).Kp = p.Kp ∧ (p.machine.run ops).Ki = p.Ki ∧
      (p.machine.run ops).Kd = p.Kd := by
  refine Machine.run_invariant (M := p.machine)
    (P := fun q => q.Kp = p.Kp ∧ q.Ki = p.Ki ∧ q.Kd = p.Kd) ⟨rfl, rfl, rfl⟩ ?_ ops
  intro q o h
  cases o <;> exact h

/-- The output grows with the error when the gains sum to a non-negative number. -/
theorem update_pidValue_mono {p : Pid} (h : 0 ≤ p.Kp + p.Ki + p.Kd) {e e' : ℚ} (he : e ≤ e') :
    (p.update e).pidValue ≤ (p.update e').pidValue := by
  have hsplit : ∀ x, (p.update x).pidValue =
      (p.Kp + p.Ki + p.Kd) * x + (p.Ki * p.I - p.Kd * p.previousError) := by
    intro x
    rw [update_pidValue]
    ring
  rw [hsplit, hsplit]
  have := mul_le_mul_of_nonneg_left he h
  linarith

end Pid

end BuptCar
