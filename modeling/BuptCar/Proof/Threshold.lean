import BuptCar.Lib.Machine
import BuptCar.Proof.Frames

/-!
# Tracking and calibration binarise a settled frame alike

`processCCD` classifies the image it binarises at `lastAvailableAverage`. After one NORMAL
presentation of a frame that average is the frame's own, and stays so while the frame is repeated
(`settled_step`), so that the threshold is the midpoint of the calibration path
(`image_of_settled`).

Over any sequence of frames the stored average is that of the last NORMAL one (`average_run`); a
stored 0 selects the midpoint.
-/

namespace BuptCar.Ccd

/-! ## Repeated presentations -/

/-- What else a presentation of a frame depends on. -/
structure Presentation where
  trackMidPixel : Int
  resetAndExplosure : Bool
  resetFrame : Frame

def present (frame : Frame) (c : Ccd) (p : Presentation) : Processed :=
  c.processCCD p.trackMidPixel p.resetAndExplosure p.resetFrame frame

/-- Consecutive presentations of `frame`, from `c`. -/
def presentations (frame : Frame) (c : Ccd) : Machine Ccd Presentation where
  init := c
  step := fun c p => (present frame c p).ccd

theorem image_of_settled {frame : Frame} {c : Ccd} (h : c.lastAvailableAverage = avgVal frame) :
    (c.captrueCCD frame).image =
      { calibrated frame with lastAvailableAverage := c.lastAvailableAverage } := by
  rw [image, parseLinearVals_captrueCCD]
  show (c.captrueCCD frame).linearToBinary _ _ c.lastAvailableAverage = _
  rw [h, linearToBinary_avgVal, calibrated_eq]
  simp only [linearToBinary, captrueCCD, load, h]

section
variable (frame : Frame) (c : Ccd) (p : Presentation)

/-- What a presentation stores. -/
theorem present_average : (present frame c p).ccd.lastAvailableAverage =
    if (present frame c p).tracingStatus = .normal then avgVal frame
    else c.lastAvailableAverage := by
  rw [present, processCCD_eq, classify_average, classify_status, parseLinearVals_captrueCCD]
  rfl

theorem present_dark (i : Nat) : (present frame c p).ccd.binaryData i =
    decide (i ∈ window ∧ (load frame).linearData i < threshold frame c.lastAvailableAverage) := by
  rw [present, processCCD_eq, classify_binaryData, image_dark]

end

/-- A NORMAL presentation leaves the frame's own average, whatever was stored. -/
theorem settles {frame : Frame} {c : Ccd} {p : Presentation}
    (h : (present frame c p).tracingStatus = .normal) :
    (present frame c p).ccd.lastAvailableAverage = avgVal frame := by
  rw [present_average, if_pos h]

theorem settled_step {frame : Frame} {c : Ccd} (h : c.lastAvailableAverage = avgVal frame)
    (p : Presentation) : (present frame c p).ccd.lastAvailableAverage = avgVal frame := by
  rw [present_average]
  split
  · rfl
  · exact h

/-- **Tracking and calibration agree after one good frame.** Once a frame was classified NORMAL,
every further consecutive presentation binarises it as the calibration path does and gives it the
status and position of that image, which are functions of the frame. -/
theorem settled_presentations (frame : Frame) (c : Ccd) (first : Presentation)
    (h : (present frame c first).tracingStatus = .normal) (ps : List Presentation)
    (p : Presentation) :
    let out := present frame ((presentations frame (present frame c first).ccd).run ps) p
    out.ccd.binaryData = (calibrated frame).binaryData ∧
      out.tracingStatus = (calibrated frame).imageStatus ∧
      (out.tracingStatus = .normal → out.trackMidPixel = (calibrated frame).imagePixel) := by
  have hs : ((presentations frame (present frame c first).ccd).run ps).lastAvailableAverage =
      avgVal frame :=
    Machine.run_invariant (P := fun c : Ccd => c.lastAvailableAverage = avgVal frame) (settles h)
      (fun _ p hc => settled_step hc p) ps
  generalize (presentations frame (present frame c first).ccd).run ps = d at hs
  have hi := image_of_settled hs
  have hstatus : (d.captrueCCD frame).image.imageStatus = (calibrated frame).imageStatus := by
    rw [hi]
    exact imageStatus_congr rfl rfl
  dsimp only
  rw [present, processCCD_eq, classify_binaryData, classify_status, hstatus]
  refine ⟨by rw [hi], rfl, fun hn => ?_⟩
  rw [classify_pixel _ _ (hstatus.trans hn), hi]
  exact imagePixel_congr rfl rfl

/-- A dark line of 21 pixels on a light ground. -/
def lineFrame : Frame := fun i => if 50 ≤ i.1 ∧ i.1 ≤ 70 then 100 else 4000

theorem settled_presentations_line :
    (present lineFrame boot ⟨0, false, lineFrame⟩).tracingStatus = .normal ∧
      (present lineFrame (present lineFrame boot ⟨0, false, lineFrame⟩).ccd
        ⟨5, true, lineFrame⟩).ccd.binaryData = (calibrated lineFrame).binaryData := by
  have h : (present lineFrame boot ⟨0, false, lineFrame⟩).tracingStatus = .normal := by
    decide +kernel
  exact ⟨h, (settled_presentations lineFrame boot ⟨0, false, lineFrame⟩ h [] _).1⟩

/-! ## The remembered threshold -/

/-- Frames presented one after the other, from `c`. -/
def shown (c : Ccd) : Machine Ccd (Frame × Presentation) where
  init := c
  step := fun c x => (present x.1 c x.2).ccd

/-- Labels a presentation that ends NORMAL with its frame's average. -/
def normalAverage (c : Ccd) (x : Frame × Presentation) : Option Int :=
  if (present x.1 c x.2).tracingStatus = .normal then some (avgVal x.1) else none

theorem average_step (c : Ccd) (x : Frame × Presentation) :
    (present x.1 c x.2).ccd.lastAvailableAverage =
      (normalAverage c x).getD c.lastAvailableAverage := by
  rw [present_average, normalAverage]
  split
  · rw [Option.getD_some]
  · rw [Option.getD_none]

/-- The stored average is that of the last NORMAL frame. -/
theorem average_run (c : Ccd) (xs : List (Frame × Presentation)) :
    ((shown c).run xs).lastAvailableAverage =
      (((shown c).labels normalAverage xs).getLast?).getD c.lastAvailableAverage := by
  induction xs using List.reverseRecOn with
  | nil => rfl
  | append_singleton xs x ih =>
    rw [Machine.run_concat, Machine.labels_concat]
    show (present x.1 ((shown c).run xs) x.2).ccd.lastAvailableAverage = _
    rw [average_step, ih]
    cases normalAverage ((shown c).run xs) x with
    | none => simp
    | some avg => simp

/-- **Threshold memory.** In any sequence of frames, one behind a NORMAL frame is binarised against
the average of the most recent NORMAL one, or against its own midpoint where that average is 0, and
a frame that ends PLATFORM or NO_TRACK leaves the stored average as it is. -/
theorem threshold_memory (c : Ccd) (xs : List (Frame × Presentation)) (x : Frame × Presentation) :
    let out := present x.1 ((shown c).run xs) x.2
    (∀ avg, ((shown c).labels normalAverage xs).getLast? = some avg →
      ∀ i, out.ccd.binaryData i = decide (i ∈ window ∧ (load x.1).linearData i <
        if avg = 0 then (minVal x.1 + maxVal x.1) / 2 else avg)) ∧
    (out.tracingStatus ≠ .normal →
      out.ccd.lastAvailableAverage = ((shown c).run xs).lastAvailableAverage) := by
  intro out
  refine ⟨fun avg havg i => ?_, fun h => ?_⟩
  · rw [present_dark, average_run, havg, Option.getD_some, threshold]
  · rw [present_average, if_neg h]

/-- A line of `dark` on a ground of `light`, at the pixels of `lineFrame`. -/
def lineOf (dark light : Fin 4096) : Frame := fun i => if 50 ≤ i.1 ∧ i.1 ≤ 70 then dark else light

/-- **An average of 0 is taken for none.** Two almost black frames are NORMAL, the second with the
average 0; the next frame is binarised at its own midpoint. -/
theorem average_zero_not_kept : ¬∀ (xs : List (Frame × Presentation)) (x : Frame × Presentation)
    (avg : Int), ((shown boot).labels normalAverage xs).getLast? = some avg →
    ∀ i ∈ window, (present x.1 ((shown boot).run xs) x.2).ccd.binaryData i =
      decide ((load x.1).linearData i < avg) := by
  intro h
  have hlabels : ((shown boot).labels normalAverage [(lineOf 0 2, ⟨0, false, lineFrame⟩),
      (lineOf 0 1, ⟨0, false, lineFrame⟩)]).getLast? = some 0 := by
    decide +kernel
  have hdark := h _ (lineFrame, ⟨0, false, lineFrame⟩) 0 hlabels 50 (by decide +kernel)
  revert hdark
  decide +kernel

end BuptCar.Ccd
