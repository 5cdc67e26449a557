import BuptCar.Dep.Pid
import Mathlib.Algebra.BigOperators.Group.List.Basic
import Mathlib.Data.List.DropRight

/-!
# The PID law

The fields `I` and `previousError` of an object are the sum and the last of the errors since its
last reset (`Recorded`), and an output depends on nothing else but the gains (`Alike`). So `update`
returns the closed form over these errors, and after `reset` an object answers every sequence of
calls as a new one does (`pid_law`).
-/

namespace BuptCar.Pid

/-! ## The errors since the last reset -/

/-- The error that a call passes. -/
def Op.error : Op → Option ℚ
  | .update error _ => some error
  | .reset => none

/-- The errors passed since the last reset. -/
def sinceReset (ops : List Op) : List ℚ :=
  (ops.rtakeWhile fun o => o.error.isSome).filterMap Op.error

theorem sinceReset_update (ops : List Op) (error t : ℚ) :
    sinceReset (ops ++ [.update error t]) = sinceReset ops ++ [error] := by
  rw [sinceReset, List.rtakeWhile_concat_pos _ _ _ (by rfl), List.filterMap_append]
  rfl

theorem sinceReset_reset (ops : List Op) : sinceReset (ops ++ [.reset]) = [] := by
  rw [sinceReset, List.rtakeWhile_concat_neg _ _ _ (by simp [Op.error])]
  rfl

/-- The fields that hold the history of the errors. -/
structure Recorded (errors : List ℚ) (p : Pid) : Prop where
  sum : p.I = errors.sum
  last : p.previousError = errors.getLastD 0

theorem Recorded.update {errors : List ℚ} {p : Pid} (h : Recorded errors p) (e t : ℚ) :
    Recorded (errors ++ [e]) (p.update e t) where
  sum := by simp [h.sum]
  last := by simp

theorem recorded_reset (p : Pid) : Recorded [] p.reset := ⟨rfl, rfl⟩

theorem recorded_run (kp ki kd : ℚ) (ops : List Op) :
    Recorded (sinceReset ops) ((new kp ki kd).machine.run ops) := by
  induction ops using List.reverseRecOn with
  | nil => exact ⟨rfl, rfl⟩
  | append_singleton ops o ih =>
    rw [Machine.run_concat]
    cases o with
    | update e t =>
      rw [sinceReset_update]
      exact ih.update e t
    | reset =>
      rw [sinceReset_reset]
      exact recorded_reset _

/-! ## What the calls return -/

/-- The value that a call returns; `reset` returns none. -/
def returned (p : Pid) : Op → Option ℚ
  | .update error t => some (p.update error t).pidValue
  | .reset => none

/-- The fields that a later output can depend on are the same. -/
structure Alike (p q : Pid) : Prop where
  Kp : p.Kp = q.Kp
  Ki : p.Ki = q.Ki
  Kd : p.Kd = q.Kd
  I : p.I = q.I
  previousError : p.previousError = q.previousError

theorem Alike.returned {p q : Pid} (h : Alike p q) (o : Op) : p.returned o = q.returned o := by
  cases o with
  | update e t =>
    show some (p.update e t).pidValue = some (q.update e t).pidValue
    rw [update_pidValue, update_pidValue, h.Kp, h.Ki, h.Kd, h.I, h.previousError]
  | reset => rfl

theorem Alike.applyOp {p q : Pid} (h : Alike p q) (o : Op) :
    Alike (p.applyOp o) (q.applyOp o) := by
  cases o with
  | update e t => exact ⟨h.Kp, h.Ki, h.Kd, congrArg (· + e) h.I, rfl⟩
  | reset => exact ⟨h.Kp, h.Ki, h.Kd, rfl, rfl⟩

theorem alike_reset {kp ki kd : ℚ} (ops : List Op) :
    Alike ((new kp ki kd).machine.run ops).reset (new kp ki kd) := by
  obtain ⟨hp, hi, hd⟩ := run_gains (new kp ki kd) ops
  exact ⟨hp, hi, hd, rfl, rfl⟩

/-- **The PID law.** Behind any calls, `update` returns the closed form over the errors since the
last reset; an object that is reset then returns what a new one with its gains does, on any
further calls, though `reset` leaves `P`, `D` and `PID_value` as they were. -/
theorem pid_law (kp ki kd : ℚ) (ops : List Op) :
    let p := (new kp ki kd).machine.run ops
    (∀ e t, p.returned (.update e t) = some (t * (kp * e + ki * ((sinceReset ops).sum + e) +
      kd * (e - (sinceReset ops).getLastD 0)))) ∧
    (∀ more, p.machine.labelsFrom returned p.reset more =
      (new kp ki kd).machine.labels returned more) ∧
    p.reset.P = p.P ∧ p.reset.D = p.D ∧ p.reset.pidValue = p.pidValue := by
  intro p
  obtain ⟨hp, hi, hd⟩ := run_gains (new kp ki kd) ops
  obtain ⟨hsum, hlast⟩ := recorded_run kp ki kd ops
  refine ⟨fun e t => ?_, fun more => ?_, rfl, rfl, rfl⟩
  · show some (p.update e t).pidValue = _
    rw [update_pidValue, hp, hi, hd, hsum, hlast, mul_comm]
    rfl
  · exact Machine.labelsFrom_congr (R := Alike) (fun _ _ o h => h.returned o)
      (fun _ _ o h => h.applyOp o) (alike_reset ops) more

end BuptCar.Pid
