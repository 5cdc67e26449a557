import Mathlib.Algebra.Order.Floor.Ring
import Mathlib.Order.Monotone.Union
import Mathlib.Tactic.Linarith

/-!
# Truncation towards zero and piecewise linear maps

`trunc v` is the integer part of `v`, rounded towards zero (C's conversion of a floating point
number to an integer type). It is monotone and fixes the integers, so an integer bound of `v` is
a bound of `trunc v` (`le_trunc`, `trunc_le`).

`rescale v a b c d` is the affine map that takes `[a, b]` to `[c, d]`. `monotone_ite_lt` joins two
monotone pieces.
-/

universe u

section Trunc

variable {α : Type u} [Ring α] [LinearOrder α] [FloorRing α]

/-- `v` rounded towards zero. -/
def trunc (v : α) : ℤ := if 0 ≤ v then ⌊v⌋ else ⌈v⌉

theorem trunc_of_nonneg {v : α} (h : 0 ≤ v) : trunc v = ⌊v⌋ := if_pos h

theorem trunc_of_neg {v : α} (h : v < 0) : trunc v = ⌈v⌉ := if_neg (not_le.2 h)

theorem trunc_mono {v w : α} (h : v ≤ w) : trunc v ≤ trunc w := by
  rcases le_or_gt 0 v with hv | hv
  · rw [trunc_of_nonneg hv, trunc_of_nonneg (hv.trans h)]
    exact Int.floor_mono h
  · rw [trunc_of_neg hv]
    rcases le_or_gt 0 w with hw | hw
    · rw [trunc_of_nonneg hw]
      have h0 : ⌈v⌉ ≤ 0 := Int.ceil_le.2 (by simpa using hv.le)
      exact h0.trans (Int.floor_nonneg.2 hw)
    · rw [trunc_of_neg hw]
      exact Int.ceil_mono h

theorem trunc_le_self {v : α} (h : 0 ≤ v) : (trunc v : α) ≤ v := by
  rw [trunc_of_nonneg h]
  exact Int.floor_le v

theorem lt_trunc_add_one {v : α} (h : 0 ≤ v) : v < trunc v + 1 := by
  rw [trunc_of_nonneg h]
  exact Int.lt_floor_add_one v

variable [IsStrictOrderedRing α]

@[simp] theorem trunc_intCast (n : ℤ) : trunc (n : α) = n := by
  unfold trunc
  split <;> simp

theorem le_trunc {n : ℤ} {v : α} (h : (n : α) ≤ v) : n ≤ trunc v := by
  simpa using trunc_mono h

theorem trunc_le {n : ℤ} {v : α} (h : v ≤ n) : trunc v ≤ n := by
  simpa using trunc_mono h

theorem trunc_nonneg {v : α} (h : 0 ≤ v) : 0 ≤ trunc v := le_trunc (by simpa using h)

end Trunc

section Rescale

variable {α : Type u} [Field α]

/-- The affine map taking `[a, b]` to `[c, d]`. -/
def rescale (v a b c d : α) : α := (v - a) / (b - a) * (d - c) + c

variable [LinearOrder α] [IsStrictOrderedRing α] {a b c d : α}

theorem rescale_mono (hab : a ≤ b) (hcd : c ≤ d) : Monotone fun v => rescale v a b c d := by
  intro v w h
  unfold rescale
  have h1 : (v - a) / (b - a) ≤ (w - a) / (b - a) :=
    div_le_div_of_nonneg_right (sub_le_sub_right h a) (sub_nonneg.2 hab)
  have h2 := mul_le_mul_of_nonneg_right h1 (sub_nonneg.2 hcd)
  linarith

end Rescale

/-- Two monotone pieces that do not step back where they join are monotone. -/
theorem monotone_ite_lt {α β : Type u} [LinearOrder α] [Preorder β] {f g : α → β} {a : α}
    (hf : Monotone f) (hg : Monotone g) (h : f a ≤ g a) :
    Monotone fun v => if v < a then f v else g v := by
  intro v w hvw
  dsimp only
  by_cases hw : w < a
  · rw [if_pos hw, if_pos (hvw.trans_lt hw)]
    exact hf hvw
  · rw [if_neg hw]
    by_cases hv : v < a
    · rw [if_pos hv]
      exact (hf hv.le).trans (h.trans (hg (not_lt.1 hw)))
    · rw [if_neg hv]
      exact hg hvw
