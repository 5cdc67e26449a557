import Mathlib.Data.Rat.Floor
import Mathlib.Logic.Function.Basic
import BuptCar.Lib.Trunc

/-!
# The board: `args.h` and the Arduino core

C's `float` is read as an exact rational, `int` as an integer. Signed overflow is undefined in C
and not modelled, except where the code converts the 32-bit millisecond clock to `int`
(`toInt32`). The LEDC peripheral is the duty written last to each channel.
-/

namespace BuptCar

/-! ## `args.h` -/

def aimSpeed : ℚ := 5 / 10

def angleKp : ℚ := 1
def angleKi : ℚ := 0
def angleKd : ℚ := 1 / 10

def speedKp : ℚ := 80000
def speedKi : ℚ := 10000
def speedKd : ℚ := 10000

def platformNum : Nat := 4

/-! ## Conversions -/

/-- `int(v)`. -/
def toInt (v : ℚ) : Int := trunc v

/-- The conversion of a non-negative `float` to `uint32_t`. -/
def toUInt (v : ℚ) : Nat := (trunc v).toNat

/-- A value of C's `int`. -/
def Is32 (n : Int) : Prop := -2 ^ 31 ≤ n ∧ n < 2 ^ 31

/-- A 32-bit pattern (or a wrapped difference) as a signed `int`. -/
def toInt32 (n : Int) : Int := (BitVec.ofInt 32 n).toInt

theorem toUInt_mono {v w : ℚ} (h : v ≤ w) : toUInt v ≤ toUInt w :=
  Int.toNat_le_toNat (trunc_mono h)

theorem le_toUInt {n : Nat} {v : ℚ} (h : (n : ℚ) ≤ v) : n ≤ toUInt v := by
  have := le_trunc (n := (n : ℤ)) (v := v) (by exact_mod_cast h)
  unfold toUInt
  omega

theorem toUInt_le {n : Nat} {v : ℚ} (h : v ≤ n) : toUInt v ≤ n := by
  have := trunc_le (n := (n : ℤ)) (v := v) (by exact_mod_cast h)
  unfold toUInt
  omega

@[simp] theorem toUInt_natCast (n : Nat) : toUInt (n : ℚ) = n :=
  le_antisymm (toUInt_le le_rfl) (le_toUInt le_rfl)

@[simp] theorem toUInt_ofNat (n : Nat) : toUInt (no_index (OfNat.ofNat n)) = n := toUInt_natCast n

/-! ## The core's integer `map` -/

/-- `long map(long x, long in_min, long in_max, long out_min, long out_max)`; the division is
C's, towards zero. -/
def Arduino.map (x inMin inMax outMin outMax : Int) : Int :=
  ((x - inMin) * (outMax - outMin)).tdiv (inMax - inMin) + outMin

theorem Arduino.map_mono {x y inMin inMax outMin outMax : Int} (hin : inMin < inMax)
    (hout : outMin ≤ outMax) (h : x ≤ y) :
    map x inMin inMax outMin outMax ≤ map y inMin inMax outMin outMax := by
  unfold map
  have hmul : (x - inMin) * (outMax - outMin) ≤ (y - inMin) * (outMax - outMin) :=
    Int.mul_le_mul_of_nonneg_right (by omega) (by omega)
  have := Int.tdiv_le_tdiv (show 0 < inMax - inMin by omega) hmul
  omega

/-! ## LEDC (PWM) channels -/

abbrev Ledc := Nat → Nat

def ledcWrite (chan duty : Nat) (l : Ledc) : Ledc := Function.update l chan duty

@[simp] theorem ledcWrite_same (chan duty : Nat) (l : Ledc) : ledcWrite chan duty l chan = duty :=
  Function.update_self ..

@[simp] theorem ledcWrite_of_ne {chan c : Nat} (h : c ≠ chan) (duty : Nat) (l : Ledc) :
    ledcWrite chan duty l c = l c :=
  Function.update_of_ne h ..

end BuptCar
