import Mathlib.Order.Lattice
import Mathlib.Data.List.Induction

/-!
# The first valid element with the smallest key

`keepMin` is the step of a loop that keeps the best valid element so far and replaces it where a
later one is strictly better. `keptMin_foldl` says which element such a loop ends with: none without
a valid one, else the first of the valid elements with the smallest key (`IsFirstMin`).
-/

universe u v

section
variable {α : Type u} {K : Type v} [LinearOrder K] (valid : α → Bool) (key : α → K)

/-- One step of the loop on the best element so far. -/
def keepMin (best : Option α) (x : α) : Option α :=
  if valid x = false then best
  else match best with
    | none => some x
    | some r => if key x < key r then some x else some r

/-- `r` stands in `l` behind valid elements with greater keys only, and before valid ones with
keys no smaller. -/
def IsFirstMin (l : List α) (r : α) : Prop :=
  ∃ pre post, l = pre ++ r :: post ∧ valid r = true ∧
    (∀ x ∈ pre, valid x = true → key r < key x) ∧ ∀ x ∈ post, valid x = true → key r ≤ key x

variable {valid key}

theorem IsFirstMin.concat_of_le {l : List α} {r x : α} (h : IsFirstMin valid key l r)
    (hx : valid x = true → key r ≤ key x) : IsFirstMin valid key (l ++ [x]) r := by
  obtain ⟨pre, post, rfl, hr, hpre, hpost⟩ := h
  refine ⟨pre, post ++ [x], by simp, hr, hpre, fun y hy => ?_⟩
  rcases List.mem_append.1 hy with hy | hy
  · exact hpost y hy
  · rw [List.mem_singleton.1 hy]
    exact hx

theorem IsFirstMin.le {l : List α} {r x : α} (h : IsFirstMin valid key l r) (hx : x ∈ l)
    (hv : valid x = true) : key r ≤ key x := by
  obtain ⟨pre, post, rfl, hr, hpre, hpost⟩ := h
  rcases List.mem_append.1 hx with hx | hx
  · exact (hpre x hx hv).le
  · rcases List.mem_cons.1 hx with rfl | hx
    · exact le_rfl
    · exact hpost x hx hv

theorem IsFirstMin.concat_of_lt {l : List α} {r x : α} (h : IsFirstMin valid key l r)
    (hv : valid x = true) (hx : key x < key r) : IsFirstMin valid key (l ++ [x]) x :=
  ⟨l, [], rfl, hv, fun _ hy hy' => hx.trans_le (h.le hy hy'), by simp⟩

/-- What the loop holds behind the elements `l`. -/
def KeptMin (valid : α → Bool) (key : α → K) (l : List α) : Option α → Prop
  | none => ∀ x ∈ l, valid x = false
  | some r => IsFirstMin valid key l r

theorem KeptMin.step {l : List α} {best : Option α} (h : KeptMin valid key l best) (x : α) :
    KeptMin valid key (l ++ [x]) (keepMin valid key best x) := by
  cases hv : valid x with
  | false =>
    unfold keepMin
    rw [if_pos hv]
    cases best with
    | none =>
      intro y hy
      rcases List.mem_append.1 hy with hy | hy
      · exact h y hy
      · rw [List.mem_singleton.1 hy, hv]
    | some r => exact IsFirstMin.concat_of_le h fun hx => by simp [hv] at hx
  | true =>
    unfold keepMin
    rw [if_neg (by simp [hv])]
    cases best with
    | none => exact ⟨l, [], rfl, hv, fun y hy hy' => by simp [h y hy] at hy', by simp⟩
    | some r =>
      dsimp only
      split
      · rename_i hlt
        exact IsFirstMin.concat_of_lt h hv hlt
      · rename_i hge
        exact IsFirstMin.concat_of_le h fun _ => not_lt.1 hge

variable (valid key) in
theorem keptMin_foldl (l : List α) : KeptMin valid key l (l.foldl (keepMin valid key) none) := by
  induction l using List.reverseRecOn with
  | nil => intro x hx; cases hx
  | append_singleton l x ih =>
    rw [List.foldl_append]
    exact ih.step x

end
