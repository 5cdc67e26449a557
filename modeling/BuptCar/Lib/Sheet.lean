import Mathlib.Data.List.Basic
import Mathlib.Tactic.TypeStar

/-!
# Sheets of text

A sheet is the cells of a text screen in reading order, each empty or with a character. `put k s`
writes a string from the cell `k` on; it is written character by character (`put_cons`).
-/

abbrev Sheet (γ : Type*) : Type _ := Nat → Option γ

namespace Sheet

variable {γ : Type*}

def empty : Sheet γ := fun _ => none

def put (k : Nat) (s : List γ) (t : Sheet γ) : Sheet γ :=
  fun i => if k ≤ i ∧ i < k + s.length then s[i - k]? else t i

theorem put_nil (k : Nat) (t : Sheet γ) : t.put k [] = t :=
  funext fun i => if_neg fun h => by have := h.2; simp only [List.length_nil] at this; omega

theorem put_inside {k i : Nat} {s : List γ} (h : i < s.length) (t : Sheet γ) :
    t.put k s (k + i) = some s[i] := by
  rw [put, if_pos (by omega), Nat.add_sub_cancel_left, List.getElem?_eq_getElem h]

theorem put_outside {k i : Nat} {s : List γ} (h : ¬(k ≤ i ∧ i < k + s.length)) (t : Sheet γ) :
    t.put k s i = t i := if_neg h

theorem put_one (k i : Nat) (c : γ) (t : Sheet γ) :
    t.put k [c] i = if i = k then some c else t i := by
  unfold put
  simp only [List.length_cons, List.length_nil]
  by_cases h : i = k
  · subst h
    rw [if_pos (by omega), if_pos rfl, Nat.sub_self]
    rfl
  · rw [if_neg (by omega), if_neg h]

theorem put_cons (k : Nat) (c : γ) (s : List γ) (t : Sheet γ) :
    t.put k (c :: s) = (t.put k [c]).put (k + 1) s := by
  funext i
  unfold put
  simp only [List.length_cons, List.length_nil]
  by_cases hk : i = k
  · subst hk
    rw [if_pos (by omega), if_neg (by omega), if_pos (by omega), Nat.sub_self]
    rfl
  · by_cases hin : k + 1 ≤ i ∧ i < k + 1 + s.length
    · obtain ⟨j, rfl⟩ : ∃ j, i = k + 1 + j := ⟨i - (k + 1), by omega⟩
      rw [if_pos (by omega), if_pos hin, show k + 1 + j - k = j + 1 by omega,
        Nat.add_sub_cancel_left]
      rfl
    · rw [if_neg (by omega), if_neg hin, if_neg (by omega)]

/-- A property of all cells stays true where a string has it. -/
theorem put_all {P : Nat → γ → Prop} {k : Nat} {s : List γ} {t : Sheet γ}
    (hs : ∀ j c, s[j]? = some c → P (k + j) c) (ht : ∀ i c, t i = some c → P i c) (i : Nat) (c : γ)
    (h : t.put k s i = some c) : P i c := by
  by_cases hin : k ≤ i ∧ i < k + s.length
  · rw [put, if_pos hin] at h
    have hP := hs (i - k) c h
    rwa [Nat.add_sub_cancel' hin.1] at hP
  · rw [put_outside hin] at h
    exact ht i c h

end Sheet
