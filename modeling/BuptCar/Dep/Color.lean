import BuptCar.Board

/-!
# `dep/color.h`

The colour sensor: six bytes read over I2C, the 16-bit channels assembled from them, and the
colour of the goods relative to the blank reading.
-/

namespace BuptCar

def COLOR_RED : Int := 0
def COLOR_GREEN : Int := 1
def COLOR_BLUE : Int := 2
def COLOR_YELLOW : Int := 3
def COLOR_EMPTY : Int := 4

/-- The six bytes `getColor` reads, in the order of the registers. -/
abbrev RawBuff := Fin 6 → UInt8

structure Rgb (α : Type) where
  r : α
  g : α
  b : α

/-- `(hi << 8) & 0xff00 | lo`. -/
def assemble (hi lo : UInt8) : UInt16 := ((hi.toUInt16 <<< 8) &&& 0xff00) ||| lo.toUInt16

/-- `rgb` after `getColor`. -/
def getColor (rawBuff : RawBuff) : Rgb UInt16 :=
  ⟨assemble (rawBuff 0) (rawBuff 1), assemble (rawBuff 2) (rawBuff 3),
    assemble (rawBuff 4) (rawBuff 5)⟩

/-- One channel of `outRGB`. -/
def relativeVal (raw blank : UInt16) : Int :=
  let out := (raw.toNat : Int) - (blank.toNat : Int)
  if 0 ≤ out then out else 0

/-- One iteration of the loop of `parseColor` on `(maxVal, largest)`. -/
def largestStep (m : Int × Nat) (out : Int × Nat) : Int × Nat := if m.1 < out.1 then out else m

/-- `none` is the end of the function, which has no `return`. -/
def parseColor (outRGB : Rgb Int) : Option Int :=
  let (maxVal, largest) := [(outRGB.r, 0), (outRGB.g, 1), (outRGB.b, 2)].foldl largestStep (0, 0)
  if maxVal < 40 then some COLOR_EMPTY
  else match largest with
    | 0 => some (if (8 / 10 : ℚ) < outRGB.g / maxVal then COLOR_YELLOW else COLOR_RED)
    | 1 => some (if (8 / 10 : ℚ) < outRGB.r / maxVal then COLOR_YELLOW else COLOR_GREEN)
    | 2 => some COLOR_BLUE
    | _ => none

def getRGB (rawBuff : RawBuff) (blankRGB : Rgb UInt16) : Option Int :=
  let rgb := getColor rawBuff
  parseColor ⟨relativeVal rgb.r blankRGB.r, relativeVal rgb.g blankRGB.g,
    relativeVal rgb.b blankRGB.b⟩

theorem largestStep_lt {m out : Int × Nat} (hm : m.2 < 3) (ho : out.2 < 3) :
    (largestStep m out).2 < 3 := by
  unfold largestStep
  split <;> assumption

/-- `parseColor` returns one of the five colours and never reaches its end. -/
theorem parseColor_spec (outRGB : Rgb Int) : ∃ c, parseColor outRGB = some c ∧ 0 ≤ c ∧ c ≤ 4 := by
  unfold parseColor
  have hlt : ([(outRGB.r, 0), (outRGB.g, 1), (outRGB.b, 2)].foldl largestStep (0, 0)).2 < 3 := by
    simp only [List.foldl_cons, List.foldl_nil]
    refine largestStep_lt (largestStep_lt (largestStep_lt ?_ ?_) ?_) ?_ <;> simp
  generalize [(outRGB.r, 0), (outRGB.g, 1), (outRGB.b, 2)].foldl largestStep (0, 0) = m at hlt ⊢
  obtain ⟨maxVal, largest⟩ := m
  dsimp only at hlt ⊢
  split
  · exact ⟨_, rfl, by decide, by decide⟩
  · match largest, hlt with
    | 0, _ => exact ⟨_, rfl, by split <;> decide, by split <;> decide⟩
    | 1, _ => exact ⟨_, rfl, by split <;> decide, by split <;> decide⟩
    | 2, _ => exact ⟨_, rfl, by decide, by decide⟩
    | _ + 3, h => exact absurd h (by omega)

theorem getRGB_spec (rawBuff : RawBuff) (blankRGB : Rgb UInt16) :
    ∃ c, getRGB rawBuff blankRGB = some c ∧ 0 ≤ c ∧ c ≤ 4 := parseColor_spec _

end BuptCar
