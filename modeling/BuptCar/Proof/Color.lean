import BuptCar.Dep.Color
import Mathlib.Tactic.Linarith

/-!
# The classification of a colour

`classifyColor` is the decision of `parseColor` without its order of channels: it treats red and
green alike (`classifyColor_swap`). The loop finds the first largest channel (`largest_cases`), and
the ratio tests of the two branches then come to the same symmetric comparison
(`parseColor_eq`).
-/

namespace BuptCar

/-- The colour of the goods, from the three channels relative to the blank reading. -/
def classifyColor (o : Rgb Int) : Int :=
  if max (max o.r o.g) o.b < 40 then COLOR_EMPTY
  else if max o.r o.g < o.b then COLOR_BLUE
  else if 4 * max o.r o.g < 5 * min o.r o.g then COLOR_YELLOW
  else if o.g < o.r then COLOR_RED
  else COLOR_GREEN

theorem largestStep_of_lt {m out : Int × Nat} (h : m.1 < out.1) : largestStep m out = out :=
  if_pos h

theorem largestStep_of_le {m out : Int × Nat} (h : out.1 ≤ m.1) : largestStep m out = m :=
  if_neg (not_lt.2 h)

/-- The loop of `parseColor` ends with the first of the largest channels. -/
theorem largest_cases {o : Rgb Int} (hr : 0 ≤ o.r) :
    [(o.r, 0), (o.g, 1), (o.b, 2)].foldl largestStep (0, 0) = (o.r, 0) ∧
        o.g ≤ o.r ∧ o.b ≤ o.r ∨
      [(o.r, 0), (o.g, 1), (o.b, 2)].foldl largestStep (0, 0) = (o.g, 1) ∧
        o.r < o.g ∧ o.b ≤ o.g ∨
      [(o.r, 0), (o.g, 1), (o.b, 2)].foldl largestStep (0, 0) = (o.b, 2) ∧
        o.r < o.b ∧ o.g < o.b := by
  have hfirst : largestStep (0, 0) (o.r, 0) = (o.r, 0) := by
    rcases hr.lt_or_eq with h | h
    · exact largestStep_of_lt h
    · rw [← h, largestStep_of_le (le_refl _)]
  rw [List.foldl_cons, hfirst, List.foldl_cons, List.foldl_cons, List.foldl_nil]
  rcases lt_or_ge o.r o.g with hrg | hrg
  · rw [@largestStep_of_lt (o.r, 0) (o.g, 1) hrg]
    rcases lt_or_ge o.g o.b with hgb | hgb
    · exact .inr (.inr ⟨largestStep_of_lt hgb, hrg.trans hgb, hgb⟩)
    · exact .inr (.inl ⟨largestStep_of_le hgb, hrg, hgb⟩)
  · rw [@largestStep_of_le (o.r, 0) (o.g, 1) hrg]
    rcases lt_or_ge o.r o.b with hrb | hrb
    · exact .inr (.inr ⟨largestStep_of_lt hrb, hrb, hrg.trans_lt hrb⟩)
    · exact .inl ⟨largestStep_of_le hrb, hrg, hrb⟩

/-- The ratio test, without the division. -/
theorem ratio_iff {x m : Int} (hm : 0 < m) : (8 / 10 : ℚ) < x / m ↔ 4 * m < 5 * x := by
  have hm' : (0 : ℚ) < m := by exact_mod_cast hm
  rw [lt_div_iff₀ hm']
  constructor
  · intro h
    have : (4 * m : ℚ) < 5 * x := by linarith
    exact_mod_cast this
  · intro h
    have : (4 * m : ℚ) < 5 * x := by exact_mod_cast h
    linarith

theorem parseColor_eq {o : Rgb Int} (hr : 0 ≤ o.r) : parseColor o = some (classifyColor o) := by
  unfold parseColor classifyColor
  rcases largest_cases hr with ⟨h, h1, h2⟩ | ⟨h, h1, h2⟩ | ⟨h, h1, h2⟩
  · have hmax : max o.r o.g = o.r := max_eq_left h1
    rw [h, hmax, max_eq_left h2, min_eq_right h1, if_neg (not_lt.2 h2)]
    dsimp only
    by_cases hm : o.r < 40
    · rw [if_pos hm, if_pos hm]
    · rw [if_neg hm, if_neg hm]
      by_cases hy : 4 * o.r < 5 * o.g
      · rw [if_pos hy, if_pos ((ratio_iff (by omega)).2 hy)]
        rfl
      · -- a tie of red and green would be yellow
        rw [if_neg hy, if_neg fun h => hy ((ratio_iff (by omega)).1 h),
          if_pos (show o.g < o.r by omega)]
        rfl
  · have hmax : max o.r o.g = o.g := max_eq_right h1.le
    rw [h, hmax, max_eq_left h2, min_eq_left h1.le, if_neg (not_lt.2 h2)]
    dsimp only
    by_cases hm : o.g < 40
    · rw [if_pos hm, if_pos hm]
    · rw [if_neg hm, if_neg hm]
      by_cases hy : 4 * o.g < 5 * o.r
      · rw [if_pos hy, if_pos ((ratio_iff (by omega)).2 hy)]
        rfl
      · rw [if_neg hy, if_neg fun h => hy ((ratio_iff (by omega)).1 h), if_neg (not_lt.2 h1.le)]
        rfl
  · have hlt : max o.r o.g < o.b := max_lt h1 h2
    rw [h, max_eq_right hlt.le, if_pos hlt]
    dsimp only
    split
    · rfl
    · rfl

/-! ## Red and green -/

def Rgb.swap {α : Type} (c : Rgb α) : Rgb α := ⟨c.g, c.r, c.b⟩

/-- Red for green and green for red. -/
def swapColor (color : Int) : Int :=
  if color = COLOR_RED then COLOR_GREEN else if color = COLOR_GREEN then COLOR_RED else color

/-- The decision in terms of its result. -/
theorem classifyColor_iff (o : Rgb Int) :
    (classifyColor o = COLOR_EMPTY ↔ max (max o.r o.g) o.b < 40) ∧
    (classifyColor o = COLOR_BLUE ↔ 40 ≤ max (max o.r o.g) o.b ∧ max o.r o.g < o.b) ∧
    (classifyColor o = COLOR_YELLOW ↔ 40 ≤ max (max o.r o.g) o.b ∧ o.b ≤ max o.r o.g ∧
      4 * max o.r o.g < 5 * min o.r o.g) ∧
    (classifyColor o = COLOR_RED ↔ 40 ≤ max (max o.r o.g) o.b ∧ o.b ≤ max o.r o.g ∧
      5 * min o.r o.g ≤ 4 * max o.r o.g ∧ o.g < o.r) ∧
    (classifyColor o = COLOR_GREEN ↔ 40 ≤ max (max o.r o.g) o.b ∧ o.b ≤ max o.r o.g ∧
      5 * min o.r o.g ≤ 4 * max o.r o.g ∧ o.r < o.g) := by
  unfold classifyColor COLOR_EMPTY COLOR_BLUE COLOR_YELLOW COLOR_RED COLOR_GREEN
  refine ⟨?_, ?_, ?_, ?_, ?_⟩ <;> omega

theorem classifyColor_mem (o : Rgb Int) :
    classifyColor o ∈ [COLOR_EMPTY, COLOR_BLUE, COLOR_YELLOW, COLOR_RED, COLOR_GREEN] := by
  unfold classifyColor
  split
  · simp
  · split
    · simp
    · split
      · simp
      · split <;> simp

theorem classifyColor_swap (o : Rgb Int) : classifyColor o.swap = swapColor (classifyColor o) := by
  unfold classifyColor swapColor COLOR_EMPTY COLOR_BLUE COLOR_YELLOW COLOR_RED COLOR_GREEN
  have hmax : max o.swap.r o.swap.g = max o.r o.g := max_comm _ _
  have hmin : min o.swap.r o.swap.g = min o.r o.g := min_comm _ _
  have hb : o.swap.b = o.b := rfl
  have hlt : o.swap.g < o.swap.r ↔ o.r < o.g := Iff.rfl
  rw [hmax, hmin, hb]
  simp only [hlt]
  omega

/-! ## The reading -/

/-- The channels relative to the blank reading. -/
def relative (raw blank : Rgb UInt16) : Rgb Int :=
  ⟨relativeVal raw.r blank.r, relativeVal raw.g blank.g, relativeVal raw.b blank.b⟩

theorem relativeVal_eq (raw blank : UInt16) :
    relativeVal raw blank = max 0 ((raw.toNat : Int) - blank.toNat) := by
  unfold relativeVal
  dsimp only
  split <;> omega

theorem getRGB_eq (rawBuff : RawBuff) (blank : Rgb UInt16) :
    getRGB rawBuff blank = some (classifyColor (relative (getColor rawBuff) blank)) := by
  refine parseColor_eq ?_
  rw [relativeVal_eq]
  exact le_max_left _ _

/-- **Colour classification.** The five results by the offsets from the blank reading; one of them
is always returned, and swapping the red and green channels swaps red with green. -/
theorem color_classification (rawBuff : RawBuff) (blank : Rgb UInt16) :
    let raw := getColor rawBuff
    let r := max 0 ((raw.r.toNat : Int) - blank.r.toNat)
    let g := max 0 ((raw.g.toNat : Int) - blank.g.toNat)
    let b := max 0 ((raw.b.toNat : Int) - blank.b.toNat)
    let out := getRGB rawBuff blank
    (out = some COLOR_EMPTY ↔ max (max r g) b < 40) ∧
    (out = some COLOR_BLUE ↔ 40 ≤ max (max r g) b ∧ max r g < b) ∧
    (out = some COLOR_YELLOW ↔ 40 ≤ max (max r g) b ∧ b ≤ max r g ∧ 4 * max r g < 5 * min r g) ∧
    (out = some COLOR_RED ↔ 40 ≤ max (max r g) b ∧ b ≤ max r g ∧ 5 * min r g ≤ 4 * max r g ∧
      g < r) ∧
    (out = some COLOR_GREEN ↔ 40 ≤ max (max r g) b ∧ b ≤ max r g ∧ 5 * min r g ≤ 4 * max r g ∧
      r < g) ∧
    (∃ color ∈ [COLOR_EMPTY, COLOR_BLUE, COLOR_YELLOW, COLOR_RED, COLOR_GREEN],
      out = some color) ∧
    ∀ rawBuff', getColor rawBuff' = raw.swap → getRGB rawBuff' blank.swap = out.map swapColor := by
  intro raw r g b out
  have hout : out = some (classifyColor ⟨r, g, b⟩) := by
    rw [show out = _ from getRGB_eq rawBuff blank]
    simp only [relative, relativeVal_eq]
    rfl
  rw [hout]
  simp only [Option.some.injEq]
  obtain ⟨h1, h2, h3, h4, h5⟩ := classifyColor_iff ⟨r, g, b⟩
  refine ⟨h1, h2, h3, h4, h5, ⟨_, classifyColor_mem _, rfl⟩, fun rawBuff' hswap => ?_⟩
  rw [getRGB_eq, hswap, Option.map_some, ← classifyColor_swap]
  simp only [relative, relativeVal_eq]
  rfl

end BuptCar
