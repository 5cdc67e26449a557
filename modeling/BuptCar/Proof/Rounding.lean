import BuptCar.Dep.CommandParser
import Mathlib.Tactic.Linarith
import Mathlib.Tactic.Positivity

/-!
# Rounding on both sides of zero

`customRound` tests how far the argument lies above its integer part, which on the left of zero it
never does: a negative value is rounded up (`customRound_of_neg`), a positive one to the nearest
integer. So it is exact up to a half except where a negative value lies more than that below the
next integer, and a left steering command is rounded as the right one only at the distances `d` with
`d % 5 ≤ 2` (`rounding_nearest_iff`).
-/

namespace BuptCar

/-! ## The error -/

theorem customRound_of_neg {v : ℚ} (h : v < 0) : customRound v = ⌈v⌉ := by
  have hle : v ≤ ⌈v⌉ := Int.le_ceil v
  rw [customRound, toInt, trunc_of_neg h, if_neg (by linarith)]

theorem customRound_of_nonneg {v : ℚ} (h : 0 ≤ v) :
    customRound v = if 1 / 2 < v - ⌊v⌋ then ⌊v⌋ + 1 else ⌊v⌋ := by
  rw [customRound, toInt, trunc_of_nonneg h, show (5 : ℚ) / 10 = 1 / 2 by norm_num]

theorem customRound_near {v : ℚ} (h : 0 ≤ v) : |(customRound v : ℚ) - v| ≤ 1 / 2 := by
  have hle : (⌊v⌋ : ℚ) ≤ v := Int.floor_le v
  have hlt : v < ⌊v⌋ + 1 := Int.lt_floor_add_one v
  rw [customRound_of_nonneg h, abs_le]
  split
  · push_cast
    constructor <;> linarith
  · constructor <;> linarith

theorem customRound_error {v : ℚ} (h : v < 0) : |(customRound v : ℚ) - v| = ⌈v⌉ - v := by
  rw [customRound_of_neg h]
  exact abs_of_nonneg (sub_nonneg.2 (Int.le_ceil v))

theorem customRound_nearest (v : ℚ) :
    |(customRound v : ℚ) - v| ≤ 1 / 2 ↔ 0 ≤ v ∨ (⌈v⌉ : ℚ) - v ≤ 1 / 2 := by
  rcases le_or_gt 0 v with h | h
  · exact ⟨fun _ => .inl h, fun _ => customRound_near h⟩
  · rw [customRound_error h]
    exact ⟨.inr, fun hv => hv.resolve_left (not_le.2 h)⟩

/-! ## Steering commands -/

/-- The steering command of the centre. -/
def steeringCentre : Int := BIAS_TURNING_START + 90

/-- The rounded value of a steering command, before it is clamped. -/
def steeringRounded (command : Int) : Int :=
  customRound (((command - BIAS_TURNING_START - 90 : Int) : ℚ) * cServoSensitivity)

theorem steeringAngle_eq (command : Int) : steeringAngle command =
    Arduino.map (clamp (steeringRounded command) (-90) 90) (-90) 90
      (toInt (-cAngleLimit)) (toInt cAngleLimit) := rfl

/-- The value it is rounded from, `d` units from the centre. -/
theorem steering_scaled (d : Int) : ((steeringCentre + d - BIAS_TURNING_START - 90 : Int) : ℚ) *
    cServoSensitivity = d * cServoSensitivity := by
  have h : steeringCentre + d - BIAS_TURNING_START - 90 = d := by
    unfold steeringCentre
    omega
  rw [h]

section
variable (d : Nat)

theorem floor_steering : ⌊(d : ℚ) * cServoSensitivity⌋ = 11 * (d : Int) / 5 := by
  have h : ⌊((11 * d : Int) : ℚ) / (5 : Nat)⌋ = 11 * (d : Int) / 5 :=
    Rat.floor_intCast_div_natCast (11 * d) 5
  have hv : (d : ℚ) * cServoSensitivity = ((11 * d : Int) : ℚ) / (5 : Nat) := by
    push_cast
    norm_num [cServoSensitivity]
    ring
  rw [hv, h]

theorem steering_fraction :
    (d : ℚ) * cServoSensitivity - ⌊(d : ℚ) * cServoSensitivity⌋ = ((d % 5 : Nat) : ℚ) / 5 := by
  have hdiv : 11 * (d : Int) = 5 * (11 * (d : Int) / 5) + ((d % 5 : Nat) : Int) := by omega
  rw [floor_steering]
  generalize 11 * (d : Int) / 5 = whole, d % 5 = rest at hdiv ⊢
  have hcast : 11 * (d : ℚ) = 5 * (whole : ℚ) + (rest : ℚ) := by exact_mod_cast hdiv
  norm_num [cServoSensitivity]
  linarith

theorem steering_nonneg : 0 ≤ (d : ℚ) * cServoSensitivity := by
  norm_num [cServoSensitivity]

/-- On the right the value is rounded up from three fifths on. -/
theorem steeringRounded_right : steeringRounded (steeringCentre + d) =
    if d % 5 ≤ 2 then 11 * (d : Int) / 5 else 11 * (d : Int) / 5 + 1 := by
  have hfrac := steering_fraction d
  rw [steeringRounded, steering_scaled, Int.cast_natCast,
    customRound_of_nonneg (steering_nonneg d), hfrac, floor_steering]
  by_cases h : d % 5 ≤ 2
  · have hle : ((d % 5 : Nat) : ℚ) ≤ 2 := by exact_mod_cast h
    rw [if_pos h, if_neg (by linarith)]
  · have hge : (3 : ℚ) ≤ ((d % 5 : Nat) : ℚ) := by exact_mod_cast Nat.lt_of_not_le h
    rw [if_neg h, if_pos (by linarith)]

/-- On the left it is always cut off. -/
theorem steeringRounded_left :
    steeringRounded (steeringCentre - d) = -(11 * (d : Int) / 5) := by
  rw [sub_eq_add_neg, steeringRounded, steering_scaled, Int.cast_neg, Int.cast_natCast, neg_mul]
  rcases (steering_nonneg d).eq_or_lt with h | h
  -- at the centre the value is 0, which the negative branch does not take
  · rw [← h, ← floor_steering, ← h]
    simpa using customRound_intCast 0
  · rw [customRound_of_neg (neg_neg_of_pos h), Int.ceil_neg, floor_steering]

theorem steering_left_near :
    |(steeringRounded (steeringCentre - d) : ℚ) - -(d * cServoSensitivity)| ≤ 1 / 2 ↔
      d % 5 ≤ 2 := by
  have hfrac := steering_fraction d
  have herr : (steeringRounded (steeringCentre - d) : ℚ) - -(d * cServoSensitivity) =
      ((d % 5 : Nat) : ℚ) / 5 := by
    rw [steeringRounded_left, ← floor_steering, Int.cast_neg, ← hfrac]
    ring
  rw [herr, abs_of_nonneg (by positivity)]
  refine ⟨fun h => ?_, fun h => ?_⟩
  · have hlt : ((d % 5 : Nat) : ℚ) < 3 := by linarith
    exact Nat.le_of_lt_succ (by exact_mod_cast hlt)
  · have hle : ((d % 5 : Nat) : ℚ) ≤ 2 := by exact_mod_cast h
    linarith

theorem steering_symmetric :
    (steeringRounded (steeringCentre - d)).natAbs = (steeringRounded (steeringCentre + d)).natAbs ↔
      d % 5 ≤ 2 := by
  rw [steeringRounded_left, steeringRounded_right]
  split
  · rename_i h
    exact ⟨fun _ => h, fun _ => Int.natAbs_neg _⟩
  · rename_i h
    exact ⟨fun he => by omega, fun h' => absurd h' h⟩

end

/-- **Rounding to nearest.** The error of `customRound` is at most a half exactly for the values
that are not negative or lie within a half of the next integer. A left steering command `d` units
from the centre is rounded to nearest, and to the magnitude of the right one, exactly when
`d % 5 ≤ 2`. -/
theorem rounding_nearest_iff (v : ℚ) (d : Nat) :
    (|(customRound v : ℚ) - v| ≤ 1 / 2 ↔ 0 ≤ v ∨ (⌈v⌉ : ℚ) - v ≤ 1 / 2) ∧
    (|(steeringRounded (steeringCentre - d) : ℚ) - -(d * cServoSensitivity)| ≤ 1 / 2 ↔
      d % 5 ≤ 2) ∧
    ((steeringRounded (steeringCentre - d)).natAbs =
      (steeringRounded (steeringCentre + d)).natAbs ↔ d % 5 ≤ 2) :=
  ⟨customRound_nearest v, steering_left_near d, steering_symmetric d⟩

/-- The commands three units from the centre: -6.6 is rounded to -6 and 6.6 to 7. -/
theorem steering_three :
    ¬(∀ v : ℚ, -2147483648 ≤ v → v ≤ 2147483647 → |(customRound v : ℚ) - v| ≤ 1 / 2) ∧
    steeringRounded 163 = -6 ∧ steeringRounded 169 = 7 := by
  refine ⟨fun h => ?_, steeringRounded_left 3, steeringRounded_right 3⟩
  have hnear := h (-66 / 10) (by norm_num) (by norm_num)
  rw [customRound_error (by norm_num)] at hnear
  norm_num at hnear

end BuptCar
