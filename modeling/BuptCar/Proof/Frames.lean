import BuptCar.Dep.Ccd

/-!
# One frame of the line sensor

A capture overwrites all of `linearData`, so what `parseLinearVals` gives, the calibration image
and the detection in it are functions of the frame: `minVal`, `maxVal`, `calibrated`.

* `minVal_le`, `le_maxVal`, `minVal_nonneg`: bounds of the window's pixels; `minVal_isLeast` and
  `maxVal_isGreatest` say that they are attained.
* `image_dark`: the image of the tracking path, with the threshold as a function of the frame and
  the stored average.
* `linearToBinary_avgVal`: the stored average and the integer midpoint are the same threshold, also
  where the average is the sentinel 0.
* `processCCD_eq`: the first of two captures is overwritten.
* `classify_status`, `classify_average`, `classify_pixel`: the outcome in terms of the image.
-/

namespace BuptCar.Ccd

def load (frame : Frame) : Ccd := boot.captrueCCD frame

def minVal (frame : Frame) : Int := (load frame).parseLinearVals.1
def maxVal (frame : Frame) : Int := (load frame).parseLinearVals.2.1
def avgVal (frame : Frame) : Int := (load frame).parseLinearVals.2.2

/-- The image of the calibration path. -/
def calibrated (frame : Frame) : Ccd := (load frame).calibrateFrame

def TrackFound (frame : Frame) : Prop := (calibrated frame).getTrackMidPixel ≠ -1

instance (frame : Frame) : Decidable (TrackFound frame) := inferInstanceAs (Decidable (_ ≠ _))

theorem parseLinearVals_congr {c d : Ccd} (h : c.linearData = d.linearData) :
    c.parseLinearVals = d.parseLinearVals := by
  simp only [parseLinearVals, h]

theorem getTrackMidPixel_congr {c d : Ccd} (hl : c.linearData = d.linearData)
    (hb : c.binaryData = d.binaryData) : c.getTrackMidPixel = d.getTrackMidPixel := by
  simp only [getTrackMidPixel, hl, hb]

theorem parseLinearVals_captrueCCD (frame : Frame) (c : Ccd) :
    (c.captrueCCD frame).parseLinearVals = (minVal frame, maxVal frame, avgVal frame) :=
  parseLinearVals_congr (d := load frame) rfl

theorem mem_window {i : Nat} : i ∈ window ↔ cCountStart ≤ i ∧ i ≤ cCountEnd := by
  simp only [window, List.mem_range'_1, cCountStart, cCountEnd]
  omega

/-- The pixels of the window are pixels of the frame. -/
theorem linearData_window (frame : Frame) {i : Nat} (h : i ∈ window) :
    ∃ hi : i < cNumPixels, (load frame).linearData i = ((frame ⟨i, hi⟩ : Nat) : Int) := by
  have hi : i < cNumPixels := Nat.lt_of_le_of_lt (mem_window.1 h).2 (by decide)
  exact ⟨hi, dif_pos hi⟩

theorem linearData_nonneg (frame : Frame) (i : Nat) : 0 ≤ (load frame).linearData i := by
  show (0 : Int) ≤ if h : i < cNumPixels then ((frame ⟨i, h⟩ : Nat) : Int) else 0
  split <;> omega

/-! ## Minimum and maximum -/

/-- The fold bounds the pixels it has seen, and its start. -/
theorem parseLinear_bounds (f : Nat → Int) (l : List Nat) (m : Int × Int) :
    (l.foldl (parseLinearStep f) m).1 ≤ m.1 ∧ m.2 ≤ (l.foldl (parseLinearStep f) m).2 ∧
      ∀ i ∈ l, (l.foldl (parseLinearStep f) m).1 ≤ f i ∧
        f i ≤ (l.foldl (parseLinearStep f) m).2 := by
  induction l generalizing m with
  | nil => exact ⟨le_rfl, le_rfl, by simp⟩
  | cons j l ih =>
    obtain ⟨h1, h2, h3⟩ := ih (parseLinearStep f m j)
    have hj : (parseLinearStep f m j).1 ≤ m.1 ∧ (parseLinearStep f m j).1 ≤ f j ∧
        m.2 ≤ (parseLinearStep f m j).2 ∧ f j ≤ (parseLinearStep f m j).2 := by
      simp only [parseLinearStep]
      refine ⟨?_, ?_, ?_, ?_⟩ <;> split <;> omega
    refine ⟨h1.trans hj.1, hj.2.2.1.trans h2, fun i hi => ?_⟩
    rcases List.mem_cons.1 hi with rfl | hi
    · exact ⟨h1.trans hj.2.1, hj.2.2.2.trans h2⟩
    · exact h3 i hi

theorem parseLinear_nonneg {f : Nat → Int} (hf : ∀ i, 0 ≤ f i) (l : List Nat) (m : Int × Int)
    (hm : 0 ≤ m.1) : 0 ≤ (l.foldl (parseLinearStep f) m).1 := by
  induction l generalizing m with
  | nil => exact hm
  | cons j l ih =>
    refine ih _ ?_
    have := hf j
    simp only [parseLinearStep]
    split <;> omega

theorem minVal_le (frame : Frame) {i : Nat} (h : i ∈ window) :
    minVal frame ≤ (load frame).linearData i :=
  ((parseLinear_bounds _ window (1000000, 0)).2.2 i h).1

theorem le_maxVal {frame : Frame} {i : Nat} (h : i ∈ window) :
    (load frame).linearData i ≤ maxVal frame :=
  ((parseLinear_bounds _ window (1000000, 0)).2.2 i h).2

theorem minVal_nonneg (frame : Frame) : 0 ≤ minVal frame :=
  parseLinear_nonneg (linearData_nonneg frame) window (1000000, 0) (by decide)

theorem maxVal_nonneg (frame : Frame) : 0 ≤ maxVal frame :=
  (parseLinear_bounds (load frame).linearData window (1000000, 0)).2.1

/-- Each of the fold's results is its start or one of the pixels. -/
theorem parseLinear_mem (f : Nat → Int) (l : List Nat) (m : Int × Int) :
    ((l.foldl (parseLinearStep f) m).1 = m.1 ∨
        ∃ i ∈ l, f i = (l.foldl (parseLinearStep f) m).1) ∧
      ((l.foldl (parseLinearStep f) m).2 = m.2 ∨
        ∃ i ∈ l, f i = (l.foldl (parseLinearStep f) m).2) := by
  induction l generalizing m with
  | nil => exact ⟨.inl rfl, .inl rfl⟩
  | cons j l ih =>
    obtain ⟨h1, h2⟩ := ih (parseLinearStep f m j)
    rw [List.foldl_cons]
    constructor
    · rcases h1 with h1 | ⟨i, hi, h1⟩
      · rw [h1]
        by_cases hlt : f j < m.1
        · exact .inr ⟨j, List.mem_cons_self, (if_pos hlt).symm⟩
        · exact .inl (if_neg hlt)
      · exact .inr ⟨i, List.mem_cons_of_mem _ hi, h1⟩
    · rcases h2 with h2 | ⟨i, hi, h2⟩
      · rw [h2]
        by_cases hlt : m.2 < f j
        · exact .inr ⟨j, List.mem_cons_self, (if_pos hlt).symm⟩
        · exact .inl (if_neg hlt)
      · exact .inr ⟨i, List.mem_cons_of_mem _ hi, h2⟩

/-- The values of the window's pixels. -/
def windowPixels (frame : Frame) : Set Int := {v | ∃ i ∈ window, (load frame).linearData i = v}

theorem linearData_le (frame : Frame) (i : Nat) : (load frame).linearData i ≤ 4095 := by
  show (if h : i < cNumPixels then ((frame ⟨i, h⟩ : Nat) : Int) else 0) ≤ 4095
  split <;> omega

theorem minVal_isLeast (frame : Frame) : IsLeast (windowPixels frame) (minVal frame) := by
  refine ⟨?_, fun v hv => ?_⟩
  · have hstart : cCountStart ∈ window := mem_window.2 (by decide)
    rcases (parseLinear_mem (load frame).linearData window (1000000, 0)).1 with h | h
    · -- the start value is above every pixel
      have h1 := minVal_le frame hstart
      have h2 := linearData_le frame cCountStart
      have h3 : minVal frame = 1000000 := h
      omega
    · exact h
  · obtain ⟨i, hi, rfl⟩ := hv
    exact minVal_le frame hi

theorem maxVal_isGreatest (frame : Frame) : IsGreatest (windowPixels frame) (maxVal frame) := by
  refine ⟨?_, fun v hv => ?_⟩
  · have hstart : cCountStart ∈ window := mem_window.2 (by decide)
    rcases (parseLinear_mem (load frame).linearData window (1000000, 0)).2 with h | h
    · -- a maximum at the start value 0 is that of a black window
      have h1 := @le_maxVal frame _ hstart
      have h2 := linearData_nonneg frame cCountStart
      have h3 : maxVal frame = 0 := h
      exact ⟨cCountStart, hstart, by omega⟩
    · exact h
  · obtain ⟨i, hi, rfl⟩ := hv
    exact le_maxVal hi

theorem avgVal_eq (frame : Frame) : avgVal frame = (minVal frame + maxVal frame) / 2 :=
  customRound_half (Int.add_nonneg (minVal_nonneg frame) (maxVal_nonneg frame))

/-! ## Threshold -/

/-- The stored average is the integer midpoint, also where it is the sentinel 0. -/
theorem linearToBinary_avgVal (frame : Frame) (c : Ccd) :
    c.linearToBinary (minVal frame) (maxVal frame) (avgVal frame) =
      c.linearToBinary (minVal frame) (maxVal frame) 0 := by
  have hmid : (minVal frame + maxVal frame).tdiv 2 = avgVal frame := by
    rw [avgVal_eq, Int.tdiv_eq_ediv_of_nonneg]
    exact Int.add_nonneg (minVal_nonneg frame) (maxVal_nonneg frame)
  simp only [linearToBinary, hmid, if_true]
  -- an average of 0 selects the midpoint, which then is 0 as well
  by_cases h0 : avgVal frame = 0
  · simp only [h0, if_true]
  · simp only [h0, if_false]

/-- The threshold of the tracking path: the stored average, or the midpoint where that is 0. -/
def threshold (frame : Frame) (average : Int) : Int :=
  if average = 0 then (minVal frame + maxVal frame) / 2 else average

/-- Dark are the pixels of the window below the threshold. -/
theorem linearToBinary_dark (frame : Frame) (average : Int) (c : Ccd) (i : Nat) :
    ((c.captrueCCD frame).linearToBinary (minVal frame) (maxVal frame) average).binaryData i =
      decide (i ∈ window ∧ (load frame).linearData i < threshold frame average) := by
  have hmid : (minVal frame + maxVal frame).tdiv 2 = (minVal frame + maxVal frame) / 2 :=
    Int.tdiv_eq_ediv_of_nonneg (Int.add_nonneg (minVal_nonneg frame) (maxVal_nonneg frame))
  have hl : (c.captrueCCD frame).linearData i = (load frame).linearData i := rfl
  unfold threshold
  simp only [linearToBinary, hmid, hl]
  by_cases hi : cCountStart ≤ i ∧ i ≤ cCountEnd
  · simp only [hi, mem_window, and_self, true_and, if_true]
  · simp only [hi, mem_window, false_and, if_false, decide_false]

theorem calibrated_eq (frame : Frame) :
    calibrated frame = (load frame).linearToBinary (minVal frame) (maxVal frame) 0 := rfl

theorem calibrated_dark (frame : Frame) (i : Nat) : (calibrated frame).binaryData i =
    decide (i ∈ window ∧ (load frame).linearData i < (minVal frame + maxVal frame) / 2) := by
  have h := linearToBinary_dark frame 0 boot i
  rwa [threshold, if_pos rfl] at h

/-! ## Classification -/

/-- The image of the tracking path. -/
def image (c : Ccd) : Ccd :=
  c.linearToBinary c.parseLinearVals.1 c.parseLinearVals.2.1 c.lastAvailableAverage

theorem image_dark (frame : Frame) (c : Ccd) (i : Nat) : (c.captrueCCD frame).image.binaryData i =
    decide (i ∈ window ∧ (load frame).linearData i < threshold frame c.lastAvailableAverage) := by
  rw [image, parseLinearVals_captrueCCD]
  exact linearToBinary_dark frame c.lastAvailableAverage c i

/-- The status an image is given. -/
def imageStatus (c : Ccd) : Status :=
  if toInt ((c.parseBinaryVals.2.2 : ℚ) * (7 / 10)) < c.parseBinaryVals.1 then .platform
  else if c.getTrackMidPixel = -1 then .noTrack
  else .normal

/-- The position reported for an image with a track. -/
def imagePixel (c : Ccd) : Int :=
  customRound (Arduino.map c.getTrackMidPixel cCountStart cCountEnd 0 128)

theorem processCCD_eq (trackMidPixel : Int) (resetAndExplosure : Bool) (resetFrame frame : Frame)
    (c : Ccd) : c.processCCD trackMidPixel resetAndExplosure resetFrame frame =
      (c.captrueCCD frame).classify trackMidPixel := by
  cases resetAndExplosure <;> rfl

section
variable (c : Ccd) (trackMidPixel : Int)

/-- The three outcomes of `classify`. -/
theorem classify_cases :
    c.image.imageStatus = .platform ∧
        c.classify trackMidPixel = ⟨c.image, trackMidPixel, .platform⟩ ∨
    c.image.imageStatus = .noTrack ∧ c.classify trackMidPixel = ⟨c.image, -1, .noTrack⟩ ∨
    c.image.imageStatus = .normal ∧ c.classify trackMidPixel =
      ⟨{ c.image with lastAvailableAverage := c.parseLinearVals.2.2 }, c.image.imagePixel,
        .normal⟩ := by
  have heq : c.classify trackMidPixel =
      if toInt ((c.image.parseBinaryVals.2.2 : ℚ) * (7 / 10)) < c.image.parseBinaryVals.1 then
        ⟨c.image, trackMidPixel, .platform⟩
      else if c.image.getTrackMidPixel = -1 then ⟨c.image, c.image.getTrackMidPixel, .noTrack⟩
      else ⟨{ c.image with lastAvailableAverage := c.parseLinearVals.2.2 }, c.image.imagePixel,
        .normal⟩ := rfl
  rw [heq]
  by_cases hp : toInt ((c.image.parseBinaryVals.2.2 : ℚ) * (7 / 10)) < c.image.parseBinaryVals.1
  · exact .inl ⟨if_pos hp, if_pos hp⟩
  · by_cases ht : c.image.getTrackMidPixel = -1
    · refine .inr (.inl ⟨?_, ?_⟩)
      · rw [imageStatus, if_neg hp, if_pos ht]
      · rw [if_neg hp, if_pos ht, ht]
    · refine .inr (.inr ⟨?_, ?_⟩)
      · rw [imageStatus, if_neg hp, if_neg ht]
      · rw [if_neg hp, if_neg ht]

theorem classify_status : (c.classify trackMidPixel).tracingStatus = c.image.imageStatus := by
  obtain ⟨hs, h⟩ | ⟨hs, h⟩ | ⟨hs, h⟩ := classify_cases c trackMidPixel <;> rw [h, hs]

theorem classify_binaryData :
    (c.classify trackMidPixel).ccd.binaryData = c.image.binaryData := by
  obtain ⟨-, h⟩ | ⟨-, h⟩ | ⟨-, h⟩ := classify_cases c trackMidPixel <;> rw [h]

theorem classify_pixel (hn : c.image.imageStatus = .normal) :
    (c.classify trackMidPixel).trackMidPixel = c.image.imagePixel := by
  obtain ⟨hs, h⟩ | ⟨hs, h⟩ | ⟨-, h⟩ := classify_cases c trackMidPixel
  · rw [hs] at hn
    cases hn
  · rw [hs] at hn
    cases hn
  · rw [h]

theorem classify_average : (c.classify trackMidPixel).ccd.lastAvailableAverage =
    if c.image.imageStatus = .normal then c.parseLinearVals.2.2 else c.lastAvailableAverage := by
  obtain ⟨hs, h⟩ | ⟨hs, h⟩ | ⟨hs, h⟩ := classify_cases c trackMidPixel <;> rw [h, hs] <;> rfl

end

theorem parseBinaryVals_congr {c d : Ccd} (h : c.binaryData = d.binaryData) :
    c.parseBinaryVals = d.parseBinaryVals := by
  simp only [parseBinaryVals, h]

theorem imageStatus_congr {c d : Ccd} (hl : c.linearData = d.linearData)
    (hb : c.binaryData = d.binaryData) : c.imageStatus = d.imageStatus := by
  simp only [imageStatus, parseBinaryVals_congr hb, getTrackMidPixel_congr hl hb]

theorem imagePixel_congr {c d : Ccd} (hl : c.linearData = d.linearData)
    (hb : c.binaryData = d.binaryData) : c.imagePixel = d.imagePixel := by
  simp only [imagePixel, getTrackMidPixel_congr hl hb]

end BuptCar.Ccd
