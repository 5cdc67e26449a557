import BuptCar.Lib.FirstMin
import BuptCar.Proof.Line

/-!
# The calibration selects the best usable exposure

The record of an iteration is a function of its index and its used frame (`frameRecord`). The
second loop of `getBestExplosureTime` is the loop `keepMin` on the records' contrasts
(`Kept.select`): its start value 1 excludes no valid record, since a found track forces
`minVal < maxVal` (`contrast_lt_one`).

The image and the detection do not see a constant offset of the frame: the extremes shift with it
(`minVal_shifted`, `maxVal_shifted`), and so does their midpoint.
-/

namespace BuptCar.Ccd

/-! ## Brightness -/

section
variable {frame shifted : Frame} {c : Nat} (h : ∀ i, (shifted i : Nat) = frame i + c)
include h

theorem linearData_shifted {i : Nat} (hi : i ∈ window) :
    (load shifted).linearData i = (load frame).linearData i + c := by
  obtain ⟨hlt, hs⟩ := linearData_window shifted hi
  obtain ⟨_, hf⟩ := linearData_window frame hi
  rw [hs, hf, h]
  exact Int.natCast_add _ _

theorem minVal_shifted : minVal shifted = minVal frame + c := by
  obtain ⟨⟨i, hi, hmin⟩, hle⟩ := minVal_isLeast frame
  refine (minVal_isLeast shifted).unique ⟨⟨i, hi, ?_⟩, fun v hv => ?_⟩
  · rw [linearData_shifted h hi, hmin]
  · obtain ⟨j, hj, rfl⟩ := hv
    rw [linearData_shifted h hj]
    exact Int.add_le_add_right (hle ⟨j, hj, rfl⟩) _

theorem maxVal_shifted : maxVal shifted = maxVal frame + c := by
  obtain ⟨⟨i, hi, hmax⟩, hge⟩ := maxVal_isGreatest frame
  refine (maxVal_isGreatest shifted).unique ⟨⟨i, hi, ?_⟩, fun v hv => ?_⟩
  · rw [linearData_shifted h hi, hmax]
  · obtain ⟨j, hj, rfl⟩ := hv
    rw [linearData_shifted h hj]
    exact Int.add_le_add_right (hge ⟨j, hj, rfl⟩) _

theorem calibrated_shifted : (calibrated shifted).binaryData = (calibrated frame).binaryData := by
  funext i
  rw [calibrated_dark, calibrated_dark, minVal_shifted h, maxVal_shifted h]
  refine decide_eq_decide.2 (and_congr_right fun hi => ?_)
  rw [linearData_shifted h hi]
  omega

end

theorem calibrateFrame_binaryData (frame : Frame) (c : Ccd) :
    (c.captrueCCD frame).calibrateFrame.binaryData = (calibrated frame).binaryData := by
  rw [calibrated, calibrateFrame, calibrateFrame, parseLinearVals_captrueCCD,
    parseLinearVals_congr (c := load frame) (d := boot.captrueCCD frame) rfl,
    parseLinearVals_captrueCCD]
  rfl

theorem calibrateFrame_captrueCCD (frame : Frame) (c : Ccd) :
    (c.captrueCCD frame).calibrateFrame.getTrackMidPixel =
      (calibrated frame).getTrackMidPixel :=
  getTrackMidPixel_congr rfl (calibrateFrame_binaryData frame c)

/-- **Brightness offset.** The calibration path makes the same image of a frame and of the frame
with an offset on every pixel, and detects the same track, from any two states. -/
theorem calibration_offset {frame shifted : Frame} {c : Nat}
    (h : ∀ i, (shifted i : Nat) = frame i + c) (a b : Ccd) :
    (a.captrueCCD shifted).calibrateFrame.binaryData =
        (b.captrueCCD frame).calibrateFrame.binaryData ∧
      (a.captrueCCD shifted).calibrateFrame.getTrackMidPixel =
        (b.captrueCCD frame).calibrateFrame.getTrackMidPixel := by
  rw [calibrateFrame_binaryData, calibrateFrame_binaryData, calibrateFrame_captrueCCD,
    calibrateFrame_captrueCCD, calibrated_shifted h]
  refine ⟨rfl, getTrackMidPixel_order (fun i _ _ => congrFun (calibrated_shifted h) i) ?_⟩
  intro i h1 h2
  show (load shifted).linearData i < (load shifted).linearData (i + 1) ↔
    (load frame).linearData i < (load frame).linearData (i + 1)
  rw [linearData_shifted h (mem_window.2 ⟨h1, by omega⟩),
    linearData_shifted h (mem_window.2 ⟨by omega, h2⟩)]
  omega

/-- A dark line, and the same line in brighter light. -/
theorem calibration_offset_line :
    (boot.captrueCCD fun i => if 50 ≤ i.1 ∧ i.1 ≤ 70 then 150 else 4050).calibrateFrame.binaryData =
      (boot.captrueCCD fun i => if 50 ≤ i.1 ∧ i.1 ≤ 70 then 101 else 4001).calibrateFrame.binaryData :=
  (@calibration_offset (fun i => if 50 ≤ i.1 ∧ i.1 ≤ 70 then 101 else 4001)
    (fun i => if 50 ≤ i.1 ∧ i.1 ≤ 70 then 150 else 4050) 49 (by decide) boot boot).1

/-! ## The records -/

/-- The record of iteration `i` with the used frame `frame`. -/
def frameRecord (i : Nat) (frame : Frame) : ExplosureRecord where
  minVal := minVal frame
  maxVal := maxVal frame
  avgVal := avgVal frame
  explosureTime := testedTime i
  isValid := decide (TrackFound frame)
  contrast := if maxVal frame = 0 then 1 else (minVal frame : ℚ) / maxVal frame

theorem testExplosure_record (i : Nat) (resetFrame frame : Frame) (c : Ccd) :
    (testExplosure i resetFrame frame c).1 = frameRecord i frame := by
  simp only [testExplosure, parseLinearVals_captrueCCD, calibrateFrame_captrueCCD]
  rfl

theorem testExplosures_records (frames : Nat → Frame × Frame) (is : List Nat) (c : Ccd) :
    (testExplosures frames is c).1 = is.map fun i => frameRecord i (frames i).2 := by
  induction is generalizing c with
  | nil => rfl
  | cons i is ih => simp only [testExplosures, testExplosure_record, ih, List.map_cons]

theorem contrast_eq {i : Nat} {frame : Frame} (h : TrackFound frame) :
    (frameRecord i frame).contrast = (minVal frame : ℚ) / maxVal frame := by
  have := minVal_lt_maxVal h
  have := minVal_nonneg frame
  exact if_neg (by omega)

theorem contrast_lt_one {i : Nat} {frame : Frame} (h : TrackFound frame) :
    (frameRecord i frame).contrast < 1 := by
  have hlt := minVal_lt_maxVal h
  have hnn := minVal_nonneg frame
  have hpos : (0 : ℚ) < maxVal frame := by exact_mod_cast (show 0 < maxVal frame by omega)
  rw [contrast_eq h, div_lt_one hpos]
  exact_mod_cast hlt

/-! ## The selection -/

/-- The locals of the second loop against the best record so far. -/
def Kept (s : Selection) : Option ExplosureRecord → Prop
  | none => s.bestRecord.isValid = false ∧ s.minContrast = 1
  | some r => s.bestRecord = r ∧ r.isValid = true ∧ s.minContrast = r.contrast

theorem selectRecord_invalid {s : Selection} {x : ExplosureRecord} (h : x.isValid = false) :
    selectRecord s x = s := if_pos h

theorem selectRecord_valid {s : Selection} {x : ExplosureRecord} (h : x.isValid = true) :
    (selectRecord s x).bestRecord = (if x.contrast < s.minContrast then x else s.bestRecord) ∧
      (selectRecord s x).minContrast =
        (if x.contrast < s.minContrast then x.contrast else s.minContrast) := by
  obtain ⟨mn, mx, av, et, iv, ct⟩ := x
  cases h
  unfold selectRecord
  dsimp only
  split
  · rename_i hf
    cases hf
  · split <;> split <;> exact ⟨rfl, rfl⟩

theorem Kept.select {s : Selection} {best : Option ExplosureRecord} (h : Kept s best)
    {x : ExplosureRecord} (hx : x.isValid = true → x.contrast < 1) :
    Kept (selectRecord s x)
      (keepMin ExplosureRecord.isValid ExplosureRecord.contrast best x) := by
  unfold keepMin
  cases hv : x.isValid with
  | false =>
    rw [if_pos rfl, selectRecord_invalid hv]
    exact h
  | true =>
    rw [if_neg (by decide)]
    obtain ⟨hb, hm⟩ := selectRecord_valid (s := s) hv
    cases best with
    | none =>
      -- the start value 1 is no obstacle to the first valid record
      rw [h.2, if_pos (hx hv)] at hb hm
      exact ⟨hb, hv, hm⟩
    | some r =>
      obtain ⟨rfl, hr, hmin⟩ := h
      dsimp only
      rw [hmin] at hb hm
      by_cases hlt : x.contrast < s.bestRecord.contrast
      · rw [if_pos hlt] at hb hm ⊢
        exact ⟨hb, hv, hm⟩
      · rw [if_neg hlt] at hb hm ⊢
        exact ⟨hb, hr, hm⟩

theorem Kept.foldl {l : List ExplosureRecord} (hl : ∀ x ∈ l, x.isValid = true → x.contrast < 1)
    {s : Selection} {best : Option ExplosureRecord} (h : Kept s best) :
    Kept (l.foldl selectRecord s)
      (l.foldl (keepMin ExplosureRecord.isValid ExplosureRecord.contrast) best) := by
  induction l generalizing s best with
  | nil => exact h
  | cons x l ih =>
    exact ih (fun y hy => hl y (List.mem_cons_of_mem _ hy)) (h.select (hl x List.mem_cons_self))

/-- The selected record: none is valid, or it is the first one with the smallest contrast. -/
theorem selectBest_spec {records : List ExplosureRecord}
    (hlt : ∀ x ∈ records, x.isValid = true → x.contrast < 1) (bestRecord : ExplosureRecord) :
    ((selectBest records bestRecord).1.isValid = false ∧ ∀ r ∈ records, r.isValid = false) ∨
    ((selectBest records bestRecord).1.isValid = true ∧
      IsFirstMin ExplosureRecord.isValid ExplosureRecord.contrast records
        (selectBest records bestRecord).1) := by
  have hk : Kept (records.foldl selectRecord ⟨{ bestRecord with isValid := false }, 1, 0⟩)
      (records.foldl (keepMin ExplosureRecord.isValid ExplosureRecord.contrast) none) :=
    Kept.foldl hlt ⟨rfl, rfl⟩
  have hm := keptMin_foldl ExplosureRecord.isValid ExplosureRecord.contrast records
  generalize records.foldl (keepMin ExplosureRecord.isValid ExplosureRecord.contrast) none = best
    at hk hm
  unfold selectBest
  cases best with
  | none => exact .inl ⟨hk.1, hm⟩
  | some r =>
    obtain ⟨hb, hv, -⟩ := hk
    rw [← hb] at hv hm
    exact .inr ⟨hv, hm⟩

theorem selectBest_unblocked {records : List ExplosureRecord} {bestRecord : ExplosureRecord}
    (h : (selectBest records bestRecord).2 = false) :
    (selectBest records bestRecord).1.isValid = true := by
  simp only [selectBest, Bool.or_eq_false_iff, Bool.not_eq_false'] at h
  exact h.1

/-! ## The result -/

def calibrationRecords (frames : Nat → Frame × Frame) : List ExplosureRecord :=
  (List.range recordSize).map fun i => frameRecord i (frames i).2

theorem concludeCalibration_eq (r : List ExplosureRecord × Ccd) (bestRecord : ExplosureRecord) :
    (concludeCalibration r bestRecord).bestRecord = (selectBest r.1 bestRecord).1 ∧
      (concludeCalibration r bestRecord).cameraIsBlocked = (selectBest r.1 bestRecord).2 :=
  ⟨rfl, rfl⟩

theorem getBestExplosureTime_eq (frames : Nat → Frame × Frame) (bestRecord : ExplosureRecord)
    (c : Ccd) :
    (getBestExplosureTime frames bestRecord c).bestRecord =
        (selectBest (calibrationRecords frames) bestRecord).1 ∧
      (getBestExplosureTime frames bestRecord c).cameraIsBlocked =
        (selectBest (calibrationRecords frames) bestRecord).2 := by
  rw [calibrationRecords, ← testExplosures_records frames _ c]
  exact concludeCalibration_eq _ bestRecord

theorem mem_calibrationRecords (frames : Nat → Frame × Frame) {i : Nat} (h : i < recordSize) :
    frameRecord i (frames i).2 ∈ calibrationRecords frames :=
  List.mem_map.2 ⟨i, List.mem_range.2 h, rfl⟩

theorem calibrationRecords_valid {frames : Nat → Frame × Frame} {r : ExplosureRecord}
    (h : r ∈ calibrationRecords frames) (hv : r.isValid = true) :
    ∃ i < recordSize, r = frameRecord i (frames i).2 ∧ TrackFound (frames i).2 := by
  obtain ⟨i, hi, rfl⟩ := List.mem_map.1 h
  exact ⟨i, List.mem_range.1 hi, rfl, of_decide_eq_true hv⟩

theorem calibrationRecords_contrast (frames : Nat → Frame × Frame) :
    ∀ x ∈ calibrationRecords frames, x.isValid = true → x.contrast < 1 := by
  intro x hx hv
  obtain ⟨i, -, rfl, hf⟩ := calibrationRecords_valid hx hv
  exact contrast_lt_one hf

/-- The first minimum among the records, by index. -/
theorem firstMin_index {frames : Nat → Frame × Frame} {r : ExplosureRecord}
    (h : IsFirstMin ExplosureRecord.isValid ExplosureRecord.contrast
      (calibrationRecords frames) r) :
    ∃ k < recordSize, r = frameRecord k (frames k).2 ∧ TrackFound (frames k).2 ∧
      (∀ j < recordSize, TrackFound (frames j).2 →
        (frameRecord k (frames k).2).contrast ≤ (frameRecord j (frames j).2).contrast) ∧
      ∀ j < k, TrackFound (frames j).2 →
        (frameRecord k (frames k).2).contrast < (frameRecord j (frames j).2).contrast := by
  have hle := fun x hx hv => h.le (x := x) hx hv
  obtain ⟨pre, post, heq, hr, hpre, -⟩ := h
  have hget : ∀ j : Nat, (calibrationRecords frames)[j]? =
      if j < recordSize then some (frameRecord j (frames j).2) else none := by
    intro j
    by_cases hj : j < recordSize <;> simp [calibrationRecords, hj]
  have hk : (calibrationRecords frames)[pre.length]? = some r := by simp [heq]
  rw [hget] at hk
  split at hk
  · rename_i hlt
    obtain rfl := Option.some.inj hk
    refine ⟨pre.length, hlt, rfl, of_decide_eq_true hr, fun j hj hf => ?_, fun j hj hf => ?_⟩
    · exact hle _ (List.mem_of_getElem? ((hget j).trans (if_pos hj))) (decide_eq_true hf)
    · have hmem : pre[j]? = some (frameRecord j (frames j).2) := by
        rw [← List.getElem?_append_left hj, ← heq, hget, if_pos (hj.trans hlt)]
      exact hpre _ (List.mem_of_getElem? hmem) (decide_eq_true hf)
  · cases hk

/-- **The calibration selects the best usable exposure.** A record comes back valid iff some tested
exposure shows a track; it is then the first record with the smallest contrast among those, and an
unblocked camera has one. -/
theorem calibration_selects (frames : Nat → Frame × Frame) (bestRecord : ExplosureRecord)
    (c : Ccd) :
    ((getBestExplosureTime frames bestRecord c).bestRecord.isValid = true ↔
      ∃ i < recordSize, TrackFound (frames i).2) ∧
    ((getBestExplosureTime frames bestRecord c).bestRecord.isValid = true →
      ∃ k < recordSize,
        (getBestExplosureTime frames bestRecord c).bestRecord = frameRecord k (frames k).2 ∧
        TrackFound (frames k).2 ∧
        (∀ j < recordSize, TrackFound (frames j).2 →
          (minVal (frames k).2 : ℚ) / maxVal (frames k).2 ≤
            (minVal (frames j).2 : ℚ) / maxVal (frames j).2) ∧
        (∀ j < k, TrackFound (frames j).2 →
          (minVal (frames k).2 : ℚ) / maxVal (frames k).2 <
            (minVal (frames j).2 : ℚ) / maxVal (frames j).2) ∧
        minVal (frames k).2 < maxVal (frames k).2 ∧
        (frameRecord k (frames k).2).contrast =
          (minVal (frames k).2 : ℚ) / maxVal (frames k).2 ∧
        (frameRecord k (frames k).2).contrast < 1) ∧
    ((getBestExplosureTime frames bestRecord c).cameraIsBlocked = false →
      (getBestExplosureTime frames bestRecord c).bestRecord.isValid = true ∧
        ∃ k < recordSize,
          (getBestExplosureTime frames bestRecord c).bestRecord.explosureTime = testedTime k) := by
  obtain ⟨h1, h2⟩ := getBestExplosureTime_eq frames bestRecord c
  have hspec := selectBest_spec (calibrationRecords_contrast frames) bestRecord
  have hunblocked := @selectBest_unblocked (calibrationRecords frames) bestRecord
  rw [← h1] at hspec hunblocked
  rw [← h2] at hunblocked
  generalize (getBestExplosureTime frames bestRecord c).bestRecord = best at hspec hunblocked ⊢
  rcases hspec with ⟨hv, hno⟩ | ⟨hv, hmin⟩
  · refine ⟨⟨fun h => ?_, fun ⟨i, hi, hf⟩ => ?_⟩, fun h => ?_, fun h => ?_⟩
    · rw [hv] at h
      cases h
    · exact absurd hf (of_decide_eq_false (hno _ (mem_calibrationRecords frames hi)))
    · rw [hv] at h
      cases h
    · rw [hunblocked h] at hv
      cases hv
  · obtain ⟨k, hk, rfl, hf, hle, hlt⟩ := firstMin_index hmin
    refine ⟨⟨fun _ => ⟨k, hk, hf⟩, fun _ => hv⟩, fun _ => ⟨k, hk, rfl, hf, fun j hj hfj => ?_,
      fun j hj hfj => ?_, minVal_lt_maxVal hf, contrast_eq hf, contrast_lt_one hf⟩,
      fun _ => ⟨hv, k, hk, rfl⟩⟩
    · rw [← contrast_eq (i := k) hf, ← contrast_eq (i := j) hfj]
      exact hle j hj hfj
    · rw [← contrast_eq (i := k) hf, ← contrast_eq (i := j) hfj]
      exact hlt j hj hfj

end BuptCar.Ccd
