import Mathlib.Logic.Basic
import Mathlib.Tactic.TypeStar

/-!
# Pens

A `Pen` says what becomes of the value at each point of a canvas. Drawing one thing after another
composes their pens: `andThen`, and `each` for a loop. Where the things drawn do not overlap, at
most one pen of a loop does something at a point (`each_idle`, `each_single`).
-/

/-- From the value at a point to the value behind the drawing. -/
abbrev Pen (α β : Type*) : Type _ := α → β → β

namespace Pen

variable {α β : Type*}

def idle : Pen α β := fun _ b => b

def andThen (p q : Pen α β) : Pen α β := fun a b => q a (p a b)

/-- `f` on the points of a region. -/
def on (S : α → Prop) [DecidablePred S] (f : β → β) : Pen α β := fun a b => if S a then f b else b

/-- The first `n` pens of a sequence, one after the other. -/
def each (pen : Nat → Pen α β) : Nat → Pen α β
  | 0 => idle
  | n + 1 => (each pen n).andThen (pen n)

theorem on_pos {S : α → Prop} [DecidablePred S] {a : α} (h : S a) (f : β → β) (b : β) :
    on S f a b = f b := if_pos h

theorem on_neg {S : α → Prop} [DecidablePred S] {a : α} (h : ¬S a) (f : β → β) (b : β) :
    on S f a b = b := if_neg h

/-- Two regions that do not meet, drawn the same way. -/
theorem on_andThen_on {S T U : α → Prop} [DecidablePred S] [DecidablePred T] [DecidablePred U]
    {a : α} (hU : U a ↔ S a ∨ T a) (hST : S a → ¬T a) (f : β → β) (b : β) :
    (on S f).andThen (on T f) a b = on U f a b := by
  show on T f a (on S f a b) = on U f a b
  by_cases hS : S a
  · rw [on_pos hS, on_neg (hST hS), on_pos (hU.2 (.inl hS))]
  · rw [on_neg hS]
    by_cases hT : T a
    · rw [on_pos hT, on_pos (hU.2 (.inr hT))]
    · rw [on_neg hT, on_neg fun h => (hU.1 h).elim hS hT]

variable {pen : Nat → Pen α β} {a : α} {n : Nat}

theorem each_idle (h : ∀ i < n, ∀ b, pen i a b = b) (b : β) : each pen n a b = b := by
  induction n with
  | zero => rfl
  | succ n ih =>
    show pen n a (each pen n a b) = b
    rw [ih fun i hi => h i (by omega), h n (by omega)]

theorem each_single {k : Nat} (hk : k < n) (h : ∀ i < n, i ≠ k → ∀ b, pen i a b = b) (b : β) :
    each pen n a b = pen k a b := by
  induction n with
  | zero => omega
  | succ n ih =>
    show pen n a (each pen n a b) = pen k a b
    by_cases hkn : k = n
    · subst hkn
      rw [each_idle fun i hi => h i (by omega) (by omega)]
    · rw [ih (by omega) fun i hi => h i (by omega), h n (by omega) (Ne.symm hkn)]

end Pen
