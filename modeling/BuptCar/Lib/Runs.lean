import Mathlib.Order.Basic

/-!
# Maximal runs of a predicate on an interval

`IsRun p a b l r`: the elements `l, …, r` satisfy `p`, and no longer stretch of `[a, b]` around them
does. `findRun` is the loop that looks for the first run of a given width: it keeps the start of
the current run and stops behind the first one that is wide enough. `findRun_spec`: it finds the
first one (`IsFirstRun`), and nothing only where no `w` consecutive elements satisfy `p`.
-/

/-- `[l, r]` is a maximal run of `p` within `[a, b]`. -/
structure IsRun (p : Nat → Bool) (a b l r : Nat) : Prop where
  lower : a ≤ l
  upper : r ≤ b
  nonempty : l ≤ r
  inside : ∀ i, l ≤ i → i ≤ r → p i = true
  left : l = a ∨ p (l - 1) = false
  right : r = b ∨ p (r + 1) = false

/-- `w` consecutive elements from `j` satisfy `p`. -/
structure Stretch (p : Nat → Bool) (a b w j : Nat) : Prop where
  lower : a ≤ j
  upper : j + w ≤ b + 1
  inside : ∀ i, j ≤ i → i < j + w → p i = true

/-- The leftmost of the runs with at least `w` elements. -/
structure IsFirstRun (p : Nat → Bool) (a b w l r : Nat) : Prop where
  isRun : IsRun p a b l r
  wide : w ≤ r + 1 - l
  first : ∀ j, Stretch p a b w j → l ≤ j

/-- The loop: `start` is where the current run begins, `i` the next element, and the last argument
the number of elements to come. -/
def findRun (p : Nat → Bool) (w : Nat) : Nat → Nat → Nat → Option (Nat × Nat)
  | start, i, 0 => if w ≤ i - start then some (start, i - 1) else none
  | start, i, n + 1 =>
    if p i = true then findRun p w start (i + 1) n
    else if w ≤ i - start then some (start, i - 1)
    else findRun p w (i + 1) (i + 1) n

section
variable {p : Nat → Bool} {a b w : Nat}

theorem IsRun.stretch {l r : Nat} (h : IsRun p a b l r) (hw : w ≤ r + 1 - l) :
    Stretch p a b w l where
  lower := h.lower
  upper := by
    have := h.upper
    have := h.nonempty
    omega
  inside i h1 h2 := h.inside i h1 (by omega)

/-- Two predicates that agree on the interval have the same stretches. -/
theorem Stretch.congr {q : Nat → Bool} {j : Nat} (h : Stretch p a b w j)
    (hpq : ∀ i, a ≤ i → i ≤ b → p i = q i) : Stretch q a b w j where
  lower := h.lower
  upper := h.upper
  inside i h1 h2 := by
    have := h.lower
    have := h.upper
    rw [← hpq i (by omega) (by omega)]
    exact h.inside i h1 h2

/-- Two runs with the same start end together. -/
theorem IsRun.right_le {l r r' : Nat} (h : IsRun p a b l r) (h' : IsRun p a b l r') : r' ≤ r := by
  by_contra hlt
  rcases h.right with hr | hr
  · have := h'.upper
    omega
  · have hin := h'.inside (r + 1) (by have := h.nonempty; omega) (by omega)
    rw [hr] at hin
    cases hin

/-- The first run is the one that starts leftmost among the wide ones. -/
theorem IsFirstRun.eq_of_leftmost {l r l' r' : Nat} (h : IsFirstRun p a b w l r)
    (hr : IsRun p a b l' r') (hw : w ≤ r' + 1 - l')
    (hl : ∀ l r, IsRun p a b l r → w ≤ r + 1 - l → l' ≤ l) : l' = l ∧ r' = r := by
  obtain rfl : l' = l := Nat.le_antisymm (hl l r h.isRun h.wide) (h.first l' (hr.stretch hw))
  exact ⟨rfl, Nat.le_antisymm (h.isRun.right_le hr) (hr.right_le h.isRun)⟩

/-! ## The loop -/

/-- The loop's state: the elements from `start` to `i` satisfy `p`, the one before `start` does
not, and no wide enough stretch begins before `start`. -/
structure Scanning (p : Nat → Bool) (a b w start i : Nat) : Prop where
  lower : a ≤ start
  le : start ≤ i
  inside : ∀ j, start ≤ j → j < i → p j = true
  left : start = a ∨ p (start - 1) = false
  first : ∀ j, Stretch p a b w j → start ≤ j

theorem Scanning.init : Scanning p a b w a a where
  lower := Nat.le_refl a
  le := Nat.le_refl a
  inside j h1 h2 := by omega
  left := .inl rfl
  first j h := h.lower

variable {start i : Nat}

theorem Scanning.extend (h : Scanning p a b w start i) (hp : p i = true) :
    Scanning p a b w start (i + 1) where
  lower := h.lower
  le := Nat.le_succ_of_le h.le
  inside j h1 h2 := by
    by_cases hj : j = i
    · rw [hj, hp]
    · exact h.inside j h1 (by omega)
  left := h.left
  first := h.first

/-- Behind a run that is too short the next one starts anew. -/
theorem Scanning.restart (h : Scanning p a b w start i) (hp : p i = false)
    (hw : ¬w ≤ i - start) : Scanning p a b w (i + 1) (i + 1) where
  lower := Nat.le_succ_of_le (Nat.le_trans h.lower h.le)
  le := Nat.le_refl _
  inside j h1 h2 := by omega
  left := .inr hp
  first j hj := by
    by_contra hlt
    -- the stretch would contain the element that ended the run
    have hin := hj.inside i (by omega) (by have := h.first j hj; omega)
    rw [hp] at hin
    cases hin

/-- Behind a run that is wide enough the loop has found the first one. -/
theorem Scanning.found (h : Scanning p a b w start i) (hpos : 0 < w) (hw : w ≤ i - start)
    (hi : i ≤ b + 1) (hend : i = b + 1 ∨ p i = false) : IsFirstRun p a b w start (i - 1) where
  isRun :=
    { lower := h.lower
      upper := by omega
      nonempty := by omega
      inside := fun j h1 h2 => h.inside j h1 (by omega)
      left := h.left
      right := by
        have hi : i - 1 + 1 = i := by omega
        rcases hend with hb | hp
        · exact .inl (by omega)
        · exact .inr (by rw [hi, hp]) }
  wide := by omega
  first := h.first

/-- What a result of the loop says. -/
def Found (p : Nat → Bool) (a b w : Nat) : Option (Nat × Nat) → Prop
  | none => ∀ j, ¬Stretch p a b w j
  | some (l, r) => IsFirstRun p a b w l r

theorem findRun_spec (hpos : 0 < w) {n : Nat} (h : Scanning p a b w start i)
    (hn : i + n = b + 1) : Found p a b w (findRun p w start i n) := by
  induction n generalizing start i with
  | zero =>
    rw [findRun]
    by_cases hw : w ≤ i - start
    · rw [if_pos hw]
      exact h.found hpos hw (by omega) (.inl (by omega))
    · rw [if_neg hw]
      intro j hj
      have := hj.upper
      have := h.first j hj
      omega
  | succ n ih =>
    rw [findRun]
    cases hp : p i with
    | true =>
      rw [if_pos rfl]
      exact ih (h.extend hp) (by omega)
    | false =>
      rw [if_neg Bool.false_ne_true]
      by_cases hw : w ≤ i - start
      · rw [if_pos hw]
        exact h.found hpos hw (by omega) (.inr hp)
      · rw [if_neg hw]
        exact ih (h.restart hp hw) (by omega)

/-- Two predicates that agree on the interval have the same runs found. -/
theorem findRun_congr {q : Nat → Bool} {n : Nat}
    (h : ∀ j, i ≤ j → j < i + n → p j = q j) :
    findRun p w start i n = findRun q w start i n := by
  induction n generalizing start i with
  | zero => rfl
  | succ n ih =>
    rw [findRun, findRun, h i (Nat.le_refl i) (by omega),
      ih fun j h1 h2 => h j (by omega) (by omega), ih fun j h1 h2 => h j (by omega) (by omega)]

end
