import BuptCar.Proof.Calibration
import BuptCar.Proof.Step

/-!
# What the calibration assigns

`Task2` declares `bestRecord` without an initialiser. `Cells` is such a record, whose fields are
`none` until they are assigned, and `selectCells` is the second loop of `getBestExplosureTime` on
it: whatever the unassigned fields happen to hold, the loop leaves the record of the model
(`fill_calibratedCells`), which no step of the loops of `Task2` changes (`run_bestRecord`). It
assigns every field or only `isValid` (`calibratedCells_cases`).

`prepareCCD` prints exposure time and average to the display also where no record is available, so
no unassigned field is read exactly if some tested exposure shows a line (`assigned_iff`).
-/

namespace BuptCar

/-! ## Records with unassigned fields -/

inductive RecordField where
  | minVal
  | maxVal
  | avgVal
  | explosureTime
  | isValid
  | contrast

/-- A record in memory; a field is `none` until it is assigned. -/
structure Cells where
  minVal : Option Int
  maxVal : Option Int
  avgVal : Option Int
  explosureTime : Option Int
  isValid : Option Bool
  contrast : Option ℚ

namespace Cells

def assigned (b : Cells) : RecordField → Bool
  | .minVal => b.minVal.isSome
  | .maxVal => b.maxVal.isSome
  | .avgVal => b.avgVal.isSome
  | .explosureTime => b.explosureTime.isSome
  | .isValid => b.isValid.isSome
  | .contrast => b.contrast.isSome

/-- The record, where the unassigned fields happen to hold the values of `r`. -/
def fill (r : ExplosureRecord) (b : Cells) : ExplosureRecord where
  minVal := b.minVal.getD r.minVal
  maxVal := b.maxVal.getD r.maxVal
  avgVal := b.avgVal.getD r.avgVal
  explosureTime := b.explosureTime.getD r.explosureTime
  isValid := b.isValid.getD r.isValid
  contrast := b.contrast.getD r.contrast

/-- Only `isValid` is assigned. -/
def cleared : Cells := ⟨none, none, none, none, some false, none⟩

/-- Every field is assigned. -/
def ofRecord (r : ExplosureRecord) : Cells :=
  ⟨some r.minVal, some r.maxVal, some r.avgVal, some r.explosureTime, some r.isValid,
    some r.contrast⟩

theorem assigned_ofRecord (r : ExplosureRecord) (f : RecordField) :
    (ofRecord r).assigned f = true := by
  cases f <;> rfl

end Cells

namespace Ccd

/-! ## The selection on cells -/

/-- The locals of the second loop of `getBestExplosureTime`, over a record with unassigned
fields. -/
structure CellSelection where
  bestRecord : Cells
  minContrast : ℚ
  maxContrast : ℚ

def selectCells (s : CellSelection) (thisRecord : ExplosureRecord) : CellSelection :=
  if thisRecord.isValid = false then s
  else
    let s := if thisRecord.contrast < s.minContrast then
        { s with
          minContrast := thisRecord.contrast
          bestRecord :=
            { explosureTime := some thisRecord.explosureTime, minVal := some thisRecord.minVal
              maxVal := some thisRecord.maxVal, avgVal := some thisRecord.avgVal
              isValid := some true, contrast := some thisRecord.contrast } }
      else s
    if s.maxContrast < thisRecord.contrast then { s with maxContrast := thisRecord.contrast }
    else s

def selectBestCells (records : List ExplosureRecord) : Cells :=
  (records.foldl selectCells ⟨Cells.cleared, 1, 0⟩).bestRecord

/-- `bestRecord` behind `getBestExplosureTime`. -/
def calibratedCells (frames : Nat → Frame × Frame) (c : Ccd) : Cells :=
  selectBestCells (testExplosures frames (List.range recordSize) c).1

def CellSelection.fill (junk : ExplosureRecord) (s : CellSelection) : Selection :=
  ⟨s.bestRecord.fill junk, s.minContrast, s.maxContrast⟩

theorem fill_selectCells (junk : ExplosureRecord) (s : CellSelection) (x : ExplosureRecord) :
    selectRecord (s.fill junk) x = (selectCells s x).fill junk := by
  unfold selectRecord selectCells
  by_cases hv : x.isValid = false
  · rw [if_pos hv, if_pos hv]
  · rw [if_neg hv, if_neg hv]
    by_cases hc : x.contrast < s.minContrast
    · simp only [CellSelection.fill, hc, if_true]
      split <;> rfl
    · simp only [CellSelection.fill, hc, if_false]
      split <;> rfl

theorem fill_selectBestCells (records : List ExplosureRecord) (junk : ExplosureRecord) :
    (selectBestCells records).fill junk = (selectBest records junk).1 := by
  have h : records.foldl selectRecord (CellSelection.fill junk ⟨Cells.cleared, 1, 0⟩) =
      (records.foldl selectCells ⟨Cells.cleared, 1, 0⟩).fill junk :=
    List.foldl_hom (CellSelection.fill junk) (fill_selectCells junk)
  exact (congrArg Selection.bestRecord h).symm

/-- Whatever the unassigned fields hold, the loop on cells leaves what the loop on records does. -/
theorem fill_calibratedCells (frames : Nat → Frame × Frame) (junk : ExplosureRecord) (c : Ccd) :
    (calibratedCells frames c).fill junk = (getBestExplosureTime frames junk c).bestRecord := by
  rw [calibratedCells, fill_selectBestCells]
  exact (concludeCalibration_eq _ junk).1.symm

/-! ## All fields or `isValid` -/

theorem selectCells_invalid {s : CellSelection} {x : ExplosureRecord} (h : x.isValid = false) :
    selectCells s x = s := if_pos h

theorem selectCells_valid {s : CellSelection} {x : ExplosureRecord} (h : x.isValid = true) :
    (selectCells s x).bestRecord =
      if x.contrast < s.minContrast then Cells.ofRecord x else s.bestRecord := by
  obtain ⟨mn, mx, av, et, iv, ct⟩ := x
  cases h
  unfold selectCells
  dsimp only
  split
  · rename_i hf
    cases hf
  · split <;> split <;> rfl

/-- No record was selected yet. -/
def Blank (s : CellSelection) : Prop := s.bestRecord = Cells.cleared ∧ s.minContrast = 1

def Filled (s : CellSelection) : Prop := ∃ r, s.bestRecord = Cells.ofRecord r

theorem Filled.select {s : CellSelection} (h : Filled s) (x : ExplosureRecord) :
    Filled (selectCells s x) := by
  cases hv : x.isValid with
  | false =>
    rw [selectCells_invalid hv]
    exact h
  | true =>
    unfold Filled
    rw [selectCells_valid hv]
    split
    · exact ⟨x, rfl⟩
    · exact h

theorem Filled.foldl {s : CellSelection} (h : Filled s) (l : List ExplosureRecord) :
    Filled (l.foldl selectCells s) := by
  induction l generalizing s with
  | nil => exact h
  | cons x l ih => exact ih (h.select x)

/-- The start value 1 is no obstacle to the first valid record. -/
theorem Blank.select {s : CellSelection} (h : Blank s) {x : ExplosureRecord}
    (hv : x.isValid = true) (hx : x.contrast < 1) : Filled (selectCells s x) := by
  refine ⟨x, ?_⟩
  rw [selectCells_valid hv, h.2, if_pos hx]

theorem Blank.foldl {l : List ExplosureRecord} (hl : ∀ x ∈ l, x.isValid = true → x.contrast < 1)
    {s : CellSelection} (h : Blank s) :
    ((l.foldl selectCells s).bestRecord = Cells.cleared ∧ ∀ x ∈ l, x.isValid = false) ∨
      (Filled (l.foldl selectCells s) ∧ ∃ x ∈ l, x.isValid = true) := by
  induction l generalizing s with
  | nil => exact .inl ⟨h.1, fun x hx => by cases hx⟩
  | cons x l ih =>
    cases hv : x.isValid with
    | true =>
      have hx : x.contrast < 1 := hl x List.mem_cons_self hv
      exact .inr ⟨(h.select hv hx).foldl l, x, List.mem_cons_self, hv⟩
    | false =>
      rw [List.foldl_cons, selectCells_invalid hv]
      rcases ih (fun y hy => hl y (List.mem_cons_of_mem _ hy)) h with ⟨hc, hno⟩ | ⟨hf, y, hy, hyv⟩
      · exact .inl ⟨hc, List.forall_mem_cons.2 ⟨hv, hno⟩⟩
      · exact .inr ⟨hf, y, List.mem_cons_of_mem _ hy, hyv⟩

/-- Ten neighbouring pixels of the window are darker than the midpoint of its extremes. -/
def ShowsLine (frame : Frame) : Prop :=
  ∃ j, Stretch (fun i => decide ((load frame).linearData i < (minVal frame + maxVal frame) / 2))
    cCountStart cCountEnd 10 j

theorem calibrated_dark_window (frame : Frame) {i : Nat} (h1 : cCountStart ≤ i)
    (h2 : i ≤ cCountEnd) : (calibrated frame).binaryData i =
      decide ((load frame).linearData i < (minVal frame + maxVal frame) / 2) := by
  rw [calibrated_dark]
  exact decide_eq_decide.2 (and_iff_right (mem_window.2 ⟨h1, h2⟩))

theorem trackFound_iff (frame : Frame) : TrackFound frame ↔ ShowsLine frame := by
  rw [TrackFound, Ne, getTrackMidPixel_eq_neg_one_iff, not_forall_not]
  exact exists_congr fun j =>
    ⟨fun h => h.congr fun i h1 h2 => calibrated_dark_window frame h1 h2,
      fun h => h.congr fun i h1 h2 => (calibrated_dark_window frame h1 h2).symm⟩

/-- A uniform surface shows none. -/
theorem not_showsLine_of_uniform {frame : Frame} {v : Fin 4096} (h : ∀ i, frame i = v) :
    ¬ShowsLine frame := by
  intro hline
  have hpixel : ∀ i ∈ window, (load frame).linearData i = (v : Nat) := by
    intro i hi
    obtain ⟨_, hp⟩ := linearData_window frame hi
    rw [hp, h]
  obtain ⟨⟨i, hi, hmin⟩, -⟩ := minVal_isLeast frame
  obtain ⟨⟨j, hj, hmax⟩, -⟩ := maxVal_isGreatest frame
  have hlt := minVal_lt_maxVal ((trackFound_iff frame).2 hline)
  rw [← hmin, ← hmax, hpixel i hi, hpixel j hj] at hlt
  exact lt_irrefl _ hlt

/-- Without a line every field but `isValid` stays unassigned; with one all are assigned. -/
theorem calibratedCells_cases (frames : Nat → Frame × Frame) (c : Ccd) :
    (calibratedCells frames c = Cells.cleared ∧ ¬∃ i < recordSize, ShowsLine (frames i).2) ∨
    ((∃ r, calibratedCells frames c = Cells.ofRecord r) ∧
      ∃ i < recordSize, ShowsLine (frames i).2) := by
  have hblank : Blank ⟨Cells.cleared, 1, 0⟩ := ⟨rfl, rfl⟩
  have h := hblank.foldl (calibrationRecords_contrast frames)
  rw [calibratedCells, testExplosures_records, ← calibrationRecords, selectBestCells]
  rcases h with ⟨hc, hno⟩ | ⟨hf, x, hx, hv⟩
  · refine .inl ⟨hc, ?_⟩
    rintro ⟨i, hi, hline⟩
    exact of_decide_eq_false (hno _ (mem_calibrationRecords frames hi)) ((trackFound_iff _).2 hline)
  · obtain ⟨i, hi, -, hfound⟩ := calibrationRecords_valid hx hv
    exact .inr ⟨hf, i, hi, (trackFound_iff _).1 hfound⟩

end Ccd

namespace Car

/-! ## The reads -/

/-- What `prepareCCD` reads behind `getBestExplosureTime`: `isValid`, what it prints to the serial
port of an available record, and what it prints to the display. -/
def prepareReads (recordAvailable : Bool) : List RecordField :=
  [.isValid] ++ (if recordAvailable then [.explosureTime, .avgVal] else []) ++
    [.explosureTime, .avgVal]

/-- What a step of the loops reads: the tracking loop prints the exposure time where it has a time
record, and hands it to `autoTrack`. -/
def stepReads (c : Car) (inp : Inputs) : Option (List RecordField) :=
  if c.control = .tracking then
    some ((if (c.getTime inp.millis).1 = -1 then [] else [.explosureTime]) ++ [.explosureTime])
  else none

/-- The fields of `bestRecord` that `prepareCCD` and a run of `Task2` read. -/
def fieldsRead (p : Prelude) (is : List Inputs) : List RecordField :=
  prepareReads (calibrate p).1.bestRecord.isValid ++ ((task2Machine p).labels stepReads is).flatten

/-- `bestRecord` of `Task2` behind the calibration. -/
def preparedCells (p : Prelude) : Cells := Ccd.calibratedCells p.frames (setup p.bestRecord).ccd

/-- What `prepareCCD` does with the outcome of the calibration. -/
def adopt (events : List Event) (r : Ccd.Calibration) (c : Car) : Car × Bool :=
  ({ c with bestRecord := r.bestRecord, ccd := r.ccd }.emit events, r.cameraIsBlocked)

theorem prepareCCD_eq (frames : Nat → Frame × Frame) (c : Car) : c.prepareCCD frames =
    c.adopt (calibrationEvents frames ++ [.delay 2000])
      (c.ccd.getBestExplosureTime frames c.bestRecord) := rfl

theorem adopt_bestRecord (events : List Event) (r : Ccd.Calibration) (c : Car) :
    (c.adopt events r).1.bestRecord = r.bestRecord := rfl

theorem adopt_isBlocked (events : List Event) (r : Ccd.Calibration) (c : Car) :
    (c.adopt events r).2 = r.cameraIsBlocked := rfl

theorem setupBlankColor_kept (blankBuff : RawBuff) (c : Car) :
    (c.setupBlankColor blankBuff).bestRecord = c.bestRecord ∧
      (c.setupBlankColor blankBuff).ccd = c.ccd := ⟨rfl, rfl⟩

/-- The record that `prepareCCD` hands back. -/
theorem calibrate_bestRecord (p : Prelude) :
    (calibrate p).1.bestRecord = (preparedCells p).fill p.bestRecord := by
  obtain ⟨hb, hc⟩ := setupBlankColor_kept p.blankBuff (setup p.bestRecord)
  have hs : (setup p.bestRecord).bestRecord = p.bestRecord := rfl
  rw [calibrate, prepareCCD_eq, adopt_bestRecord, hb, hc, hs, preparedCells,
    Ccd.fill_calibratedCells]

theorem task2_bestRecord (p : Prelude) :
    (task2 p).bestRecord = (preparedCells p).fill p.bestRecord := by
  rw [← calibrate_bestRecord, task2]
  generalize calibrate p = r
  obtain ⟨c, cameraIsBlocked⟩ := r
  cases cameraIsBlocked with
  | false => rfl
  | true => rfl

/-- In every state of a run the assigned fields hold what the calibration assigned. -/
theorem run_bestRecord (p : Prelude) (is : List Inputs) :
    ((task2Machine p).run is).bestRecord = (preparedCells p).fill p.bestRecord := by
  have hstep : ∀ (c : Car) (inp : Inputs), c.bestRecord = (preparedCells p).fill p.bestRecord →
      (c.step inp).bestRecord = (preparedCells p).fill p.bestRecord :=
    fun c inp h => (step_kept inp c).1.trans h
  exact Machine.run_invariant (M := task2Machine p) (task2_bestRecord p) hstep is

/-- The loops read the record of an unblocked camera only, of which every field is assigned. -/
theorem assigned_of_unblocked {p : Prelude} (h : (calibrate p).2 = false) (f : RecordField) :
    (preparedCells p).assigned f = true := by
  rcases Ccd.calibratedCells_cases p.frames (setup p.bestRecord).ccd with ⟨hc, -⟩ | ⟨⟨r, hr⟩, -⟩
  · have hvalid : (calibrate p).1.bestRecord.isValid = true := by
      rw [calibrate, prepareCCD_eq, adopt_isBlocked, (Ccd.getBestExplosureTime_eq _ _ _).2] at h
      rw [calibrate, prepareCCD_eq, adopt_bestRecord, (Ccd.getBestExplosureTime_eq _ _ _).1]
      exact Ccd.selectBest_unblocked h
    rw [calibrate_bestRecord, preparedCells, hc] at hvalid
    cases hvalid
  · rw [preparedCells, hr]
    exact Cells.assigned_ofRecord r f

/-- **No unassigned calibration result is read**, exactly if some tested exposure shows a line. -/
theorem assigned_iff (p : Prelude) (is : List Inputs) :
    (∀ f ∈ fieldsRead p is, (preparedCells p).assigned f = true) ↔
      ∃ i < Ccd.recordSize, Ccd.ShowsLine (p.frames i).2 := by
  rcases Ccd.calibratedCells_cases p.frames (setup p.bestRecord).ccd with
    ⟨hc, hno⟩ | ⟨⟨r, hr⟩, hline⟩
  · refine iff_of_false (fun h => ?_) hno
    have hread : RecordField.avgVal ∈ fieldsRead p is :=
      List.mem_append_left _ (List.mem_append_right _ (by simp))
    have hassigned := h _ hread
    rw [preparedCells, hc] at hassigned
    cases hassigned
  · refine iff_of_true (fun f _ => ?_) hline
    rw [preparedCells, hr]
    exact Cells.assigned_ofRecord r f

/-- A start over a uniform surface. -/
def uniformPrelude (brightness : Fin 4096) : Prelude where
  blankBuff := fun _ => 0
  frames := fun _ => (fun _ => brightness, fun _ => brightness)
  bestRecord := ⟨0, 0, 0, 0, false, 0⟩

/-- The exposure time it prints to the display was never assigned. -/
theorem uniform_unassigned : ¬∀ (p : Prelude) (is : List Inputs),
    ∀ f ∈ fieldsRead p is, (preparedCells p).assigned f = true := by
  intro h
  have hread : RecordField.explosureTime ∈ fieldsRead (uniformPrelude 0) [] :=
    List.mem_append_left _ (List.mem_append_right _ (by simp))
  have hassigned := h (uniformPrelude 0) [] _ hread
  rcases Ccd.calibratedCells_cases (uniformPrelude 0).frames
    (setup (uniformPrelude 0).bestRecord).ccd with ⟨hc, -⟩ | ⟨-, i, -, hline⟩
  · rw [preparedCells, hc] at hassigned
    cases hassigned
  · exact Ccd.not_showsLine_of_uniform (fun _ => rfl) hline

end Car

end BuptCar
