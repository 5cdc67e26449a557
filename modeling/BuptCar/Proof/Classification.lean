import BuptCar.Proof.Line
import BuptCar.Proof.Threshold

/-!
# The classification of a frame

`processCCD` in terms of the pixels: the threshold `threshold frame average` makes some of the
window dark, their number decides PLATFORM (`imageStatus_eq`), a stretch of ten among them
NORMAL, and the position is scaled into 0..128 (`imagePixel_mem`).
-/

namespace BuptCar.Ccd

/-! ## The dark pixels -/

theorem parseBinary_foldl (binaryData : Nat → Bool) (l : List Nat) (black white : Int) :
    l.foldl (fun (n : Int × Int) i => if binaryData i then (n.1 + 1, n.2) else (n.1, n.2 + 1))
        (black, white) =
      (black + l.countP binaryData, white + (l.length - l.countP binaryData)) := by
  induction l generalizing black white with
  | nil => simp
  | cons i l ih =>
    rw [List.foldl_cons, List.countP_cons]
    cases hb : binaryData i with
    | true =>
      rw [if_pos rfl, if_pos rfl, ih]
      simp only [List.length_cons, Prod.mk.injEq]
      omega
    | false =>
      rw [if_neg Bool.false_ne_true, if_neg Bool.false_ne_true, ih]
      simp only [List.length_cons, Prod.mk.injEq]
      omega

/-- The pixel is below the threshold. -/
def isDark (frame : Frame) (average : Int) (i : Nat) : Bool :=
  decide ((load frame).linearData i < threshold frame average)

theorem length_window : window.length = 112 := by
  unfold window
  rfl

/-- The number of dark pixels, and of all pixels of the window. -/
theorem parseBinaryVals_eq (c : Ccd) :
    c.parseBinaryVals.1 = window.countP c.binaryData ∧ c.parseBinaryVals.2.2 = 112 := by
  unfold parseBinaryVals
  rw [parseBinary_foldl, length_window]
  dsimp only
  omega

theorem imageStatus_eq (c : Ccd) : c.imageStatus =
    if 78 < window.countP c.binaryData then .platform
    else if c.getTrackMidPixel = -1 then .noTrack else .normal := by
  obtain ⟨hblack, htotal⟩ := parseBinaryVals_eq c
  have hcut : toInt ((c.parseBinaryVals.2.2 : ℚ) * (7 / 10)) = 78 := by
    rw [htotal, toInt, trunc_of_nonneg (by norm_num), Int.floor_eq_iff]
    norm_num
  unfold imageStatus
  rw [hcut, hblack]
  by_cases h : 78 < window.countP c.binaryData
  · rw [if_pos h, if_pos (by omega)]
  · rw [if_neg h, if_neg (by omega)]

/-- A detected position is scaled into 0..128. -/
theorem imagePixel_mem {c : Ccd} (h : c.getTrackMidPixel ≠ -1) :
    0 ≤ c.imagePixel ∧ c.imagePixel ≤ 128 := by
  obtain ⟨h1, h2⟩ := getTrackMidPixel_mem h
  have hlo := Arduino.map_mono (show (cCountStart : Int) < cCountEnd by decide)
    (show (0 : Int) ≤ 128 by decide) h1
  have hhi := Arduino.map_mono (show (cCountStart : Int) < cCountEnd by decide)
    (show (0 : Int) ≤ 128 by decide) h2
  rw [imagePixel, customRound_intCast]
  exact ⟨le_trans (by decide) hlo, le_trans hhi (by decide)⟩

/-! ## The decision -/

section
variable (frame : Frame) (c : Ccd)

theorem image_window {i : Nat} (h : i ∈ window) :
    (c.captrueCCD frame).image.binaryData i = isDark frame c.lastAvailableAverage i := by
  rw [image_dark, isDark]
  simp only [h, true_and]

theorem countP_image : window.countP (c.captrueCCD frame).image.binaryData =
    window.countP (isDark frame c.lastAvailableAverage) :=
  List.countP_congr fun i hi => by rw [image_window frame c hi]

theorem image_track : (c.captrueCCD frame).image.getTrackMidPixel = -1 ↔
    ¬∃ j, Stretch (isDark frame c.lastAvailableAverage) cCountStart cCountEnd 10 j := by
  rw [getTrackMidPixel_eq_neg_one_iff]
  constructor
  · rintro hno ⟨j, hj⟩
    exact hno j (hj.congr fun i h1 h2 => (image_window frame c (mem_window.2 ⟨h1, h2⟩)).symm)
  · intro hno j hj
    exact hno ⟨j, hj.congr fun i h1 h2 => image_window frame c (mem_window.2 ⟨h1, h2⟩)⟩

/-- The three outcomes, by the dark pixels. -/
theorem image_cases :
    78 < window.countP (isDark frame c.lastAvailableAverage) ∧
        (c.captrueCCD frame).image.imageStatus = .platform ∨
    ¬78 < window.countP (isDark frame c.lastAvailableAverage) ∧
        (¬∃ j, Stretch (isDark frame c.lastAvailableAverage) cCountStart cCountEnd 10 j) ∧
        (c.captrueCCD frame).image.imageStatus = .noTrack ∨
    ¬78 < window.countP (isDark frame c.lastAvailableAverage) ∧
        (∃ j, Stretch (isDark frame c.lastAvailableAverage) cCountStart cCountEnd 10 j) ∧
        (c.captrueCCD frame).image.imageStatus = .normal := by
  rw [imageStatus_eq, countP_image]
  by_cases hp : 78 < window.countP (isDark frame c.lastAvailableAverage)
  · exact .inl ⟨hp, if_pos hp⟩
  · rw [if_neg hp]
    have htrack := image_track frame c
    by_cases ht : (c.captrueCCD frame).image.getTrackMidPixel = -1
    · exact .inr (.inl ⟨hp, htrack.1 ht, if_pos ht⟩)
    · exact .inr (.inr ⟨hp, by_contra fun hno => ht (htrack.2 hno), if_neg ht⟩)

/-- **Frame classification.** With the threshold `threshold frame L` for the stored average `L`,
`processCCD` gives PLATFORM iff more than 78 pixels of the window are dark, else NO_TRACK iff no
ten consecutive ones are, else NORMAL with a position in 0..128; it stores the frame's average
exactly when the status is NORMAL. -/
theorem frame_classification (p : Presentation) :
    let L := c.lastAvailableAverage
    let out := present frame c p
    IsLeast (windowPixels frame) (minVal frame) ∧ IsGreatest (windowPixels frame) (maxVal frame) ∧
    (out.tracingStatus = .platform ↔ 78 < window.countP (isDark frame L)) ∧
    (out.tracingStatus = .noTrack ↔ ¬78 < window.countP (isDark frame L) ∧
      ¬∃ j, Stretch (isDark frame L) cCountStart cCountEnd 10 j) ∧
    (out.tracingStatus = .normal ↔ ¬78 < window.countP (isDark frame L) ∧
      ∃ j, Stretch (isDark frame L) cCountStart cCountEnd 10 j) ∧
    (out.tracingStatus = .normal → 0 ≤ out.trackMidPixel ∧ out.trackMidPixel ≤ 128) ∧
    out.ccd.lastAvailableAverage =
      if out.tracingStatus = .normal then (minVal frame + maxVal frame) / 2 else L := by
  intro L out
  have hout : out = (c.captrueCCD frame).classify p.trackMidPixel := processCCD_eq ..
  have hstatus : out.tracingStatus = _ :=
    (congrArg Processed.tracingStatus hout).trans (classify_status _ _)
  have havg : out.ccd.lastAvailableAverage = _ :=
    (congrArg (·.ccd.lastAvailableAverage) hout).trans (classify_average _ _)
  have hpix := classify_pixel (c.captrueCCD frame) p.trackMidPixel
  rw [← hout, ← hstatus] at hpix
  rw [← hstatus, parseLinearVals_captrueCCD, avgVal_eq] at havg
  refine ⟨minVal_isLeast frame, maxVal_isGreatest frame, ?_, ?_, ?_, fun hn => ?_, havg⟩
  · obtain ⟨h1, h2⟩ | ⟨h1, -, h2⟩ | ⟨h1, -, h2⟩ := image_cases frame c <;> rw [hstatus, h2]
    · exact iff_of_true rfl h1
    · exact iff_of_false Status.noConfusion h1
    · exact iff_of_false Status.noConfusion h1
  · obtain ⟨h1, h2⟩ | ⟨h1, h3, h2⟩ | ⟨-, h3, h2⟩ := image_cases frame c <;> rw [hstatus, h2]
    · exact iff_of_false Status.noConfusion fun h => h.1 h1
    · exact iff_of_true rfl ⟨h1, h3⟩
    · exact iff_of_false Status.noConfusion fun h => h.2 h3
  · obtain ⟨h1, h2⟩ | ⟨-, h3, h2⟩ | ⟨h1, h3, h2⟩ := image_cases frame c <;> rw [hstatus, h2]
    · exact iff_of_false Status.noConfusion fun h => h.1 h1
    · exact iff_of_false Status.noConfusion fun h => h3 h.2
    · exact iff_of_true rfl ⟨h1, h3⟩
  · rw [hpix hn]
    apply imagePixel_mem
    rw [Ne, image_track]
    rw [hstatus] at hn
    obtain ⟨-, h2⟩ | ⟨-, -, h2⟩ | ⟨-, h3, -⟩ := image_cases frame c
    · rw [h2] at hn
      cases hn
    · rw [h2] at hn
      cases hn
    · exact not_not.2 h3

end

end BuptCar.Ccd
