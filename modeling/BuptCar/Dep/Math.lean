import BuptCar.Board
import Mathlib.Tactic.NormNum

/-!
# `dep/math.h`

The helpers write their result back through the reference `val` and return the same value; the
model returns it. `lerp` and `scaleAngle` have no caller.
-/

namespace BuptCar

def clamp {α : Type} [LT α] [DecidableLT α] (val minimum maximum : α) : α :=
  if val < minimum then minimum else if maximum < val then maximum else val

def customRound (val : ℚ) : Int :=
  if 5 / 10 < val - toInt val then toInt val + 1 else toInt val

/-- The template `map`, whose only instance is `T = float`. -/
def map (val valMin valMax outMin outMax : ℚ) : ℚ :=
  (val - valMin) / (valMax - valMin) * (outMax - outMin) + outMin

section
variable {α : Type} [LinearOrder α] {val minimum maximum : α}

theorem clamp_eq_max_min (h : minimum ≤ maximum) :
    clamp val minimum maximum = max minimum (min val maximum) := by
  unfold clamp
  split
  · rename_i hlt
    rw [min_eq_left (hlt.le.trans h), max_eq_left hlt.le]
  · rename_i hge
    split
    · rename_i hgt
      rw [min_eq_right hgt.le, max_eq_right h]
    · rename_i hle
      rw [min_eq_left (not_lt.1 hle), max_eq_right (not_lt.1 hge)]

theorem le_clamp (h : minimum ≤ maximum) : minimum ≤ clamp val minimum maximum := by
  rw [clamp_eq_max_min h]
  exact le_max_left _ _

theorem clamp_le (h : minimum ≤ maximum) : clamp val minimum maximum ≤ maximum := by
  rw [clamp_eq_max_min h]
  exact max_le h (min_le_right _ _)

theorem clamp_mono (h : minimum ≤ maximum) : Monotone fun v => clamp v minimum maximum := by
  intro v w hvw
  simp only [clamp_eq_max_min h]
  exact max_le_max_left _ (min_le_min_right _ hvw)

theorem clamp_of_mem (h1 : minimum ≤ val) (h2 : val ≤ maximum) :
    clamp val minimum maximum = val := by
  rw [clamp, if_neg (not_lt.2 h1), if_neg (not_lt.2 h2)]

end

theorem map_mono {a b c d : ℚ} (hab : a ≤ b) (hcd : c ≤ d) : Monotone fun v => map v a b c d :=
  rescale_mono hab hcd

@[simp] theorem customRound_intCast (n : Int) : customRound n = n := by
  norm_num [customRound, toInt]

/-- Half a non-negative integer is rounded down. -/
theorem customRound_half {n : Int} (h : 0 ≤ n) : customRound ((n : ℚ) / 2) = n / 2 := by
  have hfl : ⌊(n : ℚ) / 2⌋ = n / 2 := by
    have := Rat.floor_intCast_div_natCast n 2
    simpa using this
  have htr : toInt ((n : ℚ) / 2) = n / 2 := by
    rw [toInt, trunc_of_nonneg (by positivity), hfl]
  rw [customRound, htr, if_neg]
  have h2 : (n : ℚ) ≤ 2 * ((n / 2 : Int) : ℚ) + 1 := by
    exact_mod_cast (show n ≤ 2 * (n / 2) + 1 by omega)
  linarith

end BuptCar
