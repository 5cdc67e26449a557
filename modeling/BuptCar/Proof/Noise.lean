import BuptCar.Proof.Classification
import BuptCar.Proof.Pilot
import BuptCar.Proof.Assigned
import BuptCar.Proof.Threshold

/-!
# Noise

Two frames are `Close` when their pixels in the window differ by at most `ε`; a frame is `Clear` for
a stored average when no pixel of the window is within `2 ε` of the threshold. Close frames have
close extremes, so close midpoints, so the pixels of a clear frame stay on their side of the
threshold (`Clear.dark`): the images agree, and with them the status. `noise_run`: a whole run in
which all frames are clear takes the same decisions on any close frames.
-/

namespace BuptCar

namespace Ccd

def Close (ε : Int) (frame frame' : Frame) : Prop :=
  ∀ i ∈ window, (load frame).linearData i ≤ (load frame').linearData i + ε ∧
    (load frame').linearData i ≤ (load frame).linearData i + ε

instance (ε : Int) (frame frame' : Frame) : Decidable (Close ε frame frame') :=
  inferInstanceAs (Decidable (∀ i ∈ window, _ ∧ _))

structure Clear (ε average : Int) (frame : Frame) : Prop where
  margin : ∀ i ∈ window, (load frame).linearData i + 2 * ε < threshold frame average ∨
    threshold frame average + 2 * ε ≤ (load frame).linearData i
  /-- an average of 0 would not be remembered -/
  bright : (seen average frame).imageStatus = .normal → ε < avgVal frame

/-- Both averages are unset, or they are close. -/
def NearAverage (ε a b : Int) : Prop :=
  a = 0 ∧ b = 0 ∨ a ≠ 0 ∧ b ≠ 0 ∧ a ≤ b + ε ∧ b ≤ a + ε

section
variable {ε : Int} {frame frame' : Frame}

theorem Close.symm (h : Close ε frame frame') : Close ε frame' frame :=
  fun i hi => ⟨(h i hi).2, (h i hi).1⟩

theorem Close.minVal_le (h : Close ε frame frame') : minVal frame ≤ minVal frame' + ε := by
  obtain ⟨i, hi, heq⟩ := (minVal_isLeast frame').1
  have h1 := Ccd.minVal_le frame hi
  have h2 := (h i hi).1
  omega

theorem Close.maxVal_le (h : Close ε frame frame') : maxVal frame ≤ maxVal frame' + ε := by
  obtain ⟨i, hi, heq⟩ := (maxVal_isGreatest frame).1
  have h1 := @le_maxVal frame' i hi
  have h2 := (h i hi).1
  omega

theorem Close.avgVal_le (h : Close ε frame frame') : avgVal frame ≤ avgVal frame' + ε := by
  have h1 := h.minVal_le
  have h2 := h.maxVal_le
  rw [avgVal_eq, avgVal_eq]
  omega

theorem threshold_eq_avgVal (frame : Frame) (average : Int) :
    threshold frame average = if average = 0 then avgVal frame else average := by
  rw [threshold, avgVal_eq]

theorem Close.threshold (h : Close ε frame frame') {a b : Int} (hab : NearAverage ε a b) :
    Ccd.threshold frame a ≤ Ccd.threshold frame' b + ε ∧
      Ccd.threshold frame' b ≤ Ccd.threshold frame a + ε := by
  rw [threshold_eq_avgVal, threshold_eq_avgVal]
  rcases hab with ⟨rfl, rfl⟩ | ⟨ha, hb, h1, h2⟩
  · rw [if_pos rfl, if_pos rfl]
    exact ⟨h.avgVal_le, h.symm.avgVal_le⟩
  · rw [if_neg ha, if_neg hb]
    exact ⟨h1, h2⟩

/-- The pixels of a clear frame stay on their side of the threshold. -/
theorem Clear.dark {a b : Int} (hc : Clear ε a frame) (h : Close ε frame frame')
    (hab : NearAverage ε a b) (i : Nat) :
    (seen a frame).binaryData i = (seen b frame').binaryData i := by
  obtain ⟨h1, h2⟩ := h.threshold hab
  rw [seen_dark, seen_dark, decide_eq_decide]
  refine and_congr_right fun hi => ?_
  obtain ⟨h3, h4⟩ := h i hi
  rcases hc.margin i hi with hlt | hge
  · exact iff_of_true (by omega) (by omega)
  · exact iff_of_false (by omega) (by omega)

/-- Status and place of the line are those of the image. -/
theorem imageStatus_binary {c d : Ccd} (h : ∀ i, c.binaryData i = d.binaryData i) :
    c.imageStatus = d.imageStatus := by
  have htrack : c.getTrackMidPixel = -1 ↔ d.getTrackMidPixel = -1 := by
    rw [getTrackMidPixel_eq_neg_one_iff, getTrackMidPixel_eq_neg_one_iff, funext h]
  simp only [imageStatus_eq, funext h, htrack]

theorem Clear.status {a b : Int} (hc : Clear ε a frame) (h : Close ε frame frame')
    (hab : NearAverage ε a b) : (seen a frame).imageStatus = (seen b frame').imageStatus :=
  imageStatus_binary (hc.dark h hab)

theorem Clear.nextAverage {a b : Int} (hc : Clear ε a frame) (h : Close ε frame frame')
    (hab : NearAverage ε a b) : NearAverage ε
      (if (seen a frame).imageStatus = .normal then avgVal frame else a)
      (if (seen b frame').imageStatus = .normal then avgVal frame' else b) := by
  rw [← hc.status h hab]
  by_cases hs : (seen a frame).imageStatus = .normal
  · have hpos := hc.bright hs
    have h1 := h.avgVal_le
    have h2 := h.symm.avgVal_le
    rw [if_pos hs, if_pos hs]
    by_cases hε : 0 ≤ ε
    · exact .inr ⟨by omega, by omega, h1, h2⟩
    · omega
  · rw [if_neg hs, if_neg hs]
    exact hab

/-! ## Positions -/

theorem track_of_normal {c : Ccd} (h : c.imageStatus = .normal) : c.getTrackMidPixel ≠ -1 := by
  intro ht
  rw [imageStatus_eq, if_pos ht] at h
  split at h <;> cases h

theorem midPixel_near (f g : Nat → Int) (l r : Nat) : midPixel f l r ≤ midPixel g l r + 1 := by
  unfold midPixel
  split
  · omega
  · split <;> split <;> omega

/-- The same line in two images is found at neighbouring pixels at most. -/
theorem getTrackMidPixel_near {c d : Ccd} (h : ∀ i, c.binaryData i = d.binaryData i) :
    c.getTrackMidPixel ≤ d.getTrackMidPixel + 1 := by
  have hline : c.firstLine = d.firstLine := by rw [firstLine, firstLine, funext h]
  rw [getTrackMidPixel_eq, getTrackMidPixel_eq, hline]
  cases d.firstLine with
  | none =>
    show (-1 : Int) ≤ -1 + 1
    decide
  | some line =>
    show ((midPixel c.linearData line.1 line.2 : Nat) : Int) ≤
      (midPixel d.linearData line.1 line.2 : Nat) + 1
    exact_mod_cast midPixel_near c.linearData d.linearData line.1 line.2

/-- A pixel of the window is at most two steps of the scale 0..128. -/
theorem imagePixel_near {c d : Ccd} (h : c.getTrackMidPixel ≤ d.getTrackMidPixel + 1)
    (hd : d.getTrackMidPixel ≠ -1) : c.imagePixel ≤ d.imagePixel + 2 := by
  have hmem := (getTrackMidPixel_mem hd).1
  unfold imagePixel Arduino.map
  rw [customRound_intCast, customRound_intCast]
  generalize c.getTrackMidPixel = x at h
  generalize d.getTrackMidPixel = y at h hmem
  have hmono : ((x - cCountStart) * (128 - 0)).tdiv (cCountEnd - cCountStart) ≤
      ((y + 1 - cCountStart) * (128 - 0)).tdiv (cCountEnd - cCountStart) :=
    Int.tdiv_le_tdiv (by decide) (by omega)
  have hstep : ((y + 1 - cCountStart) * (128 - 0)).tdiv (cCountEnd - cCountStart) ≤
      ((y - cCountStart) * (128 - 0)).tdiv (cCountEnd - cCountStart) + 2 := by
    have h15 : (cCountStart : Int) = 15 := rfl
    have h126 : (cCountEnd : Int) = 126 := rfl
    rw [h15] at hmem
    rw [h15, h126, Int.tdiv_eq_ediv_of_nonneg (by omega), Int.tdiv_eq_ediv_of_nonneg (by omega)]
    omega
  omega

theorem Clear.pixel {a b : Int} (hc : Clear ε a frame) (h : Close ε frame frame')
    (hab : NearAverage ε a b) (hn : (seen a frame).imageStatus = .normal) :
    (seen a frame).imagePixel ≤ (seen b frame').imagePixel + 2 ∧
      (seen b frame').imagePixel ≤ (seen a frame).imagePixel + 2 := by
  have hdark := hc.dark h hab
  have hn' := (hc.status h hab).symm.trans hn
  exact ⟨imagePixel_near (getTrackMidPixel_near hdark) (track_of_normal hn'),
    imagePixel_near (getTrackMidPixel_near fun i => (hdark i).symm) (track_of_normal hn)⟩

end

end Ccd

/-! ## Runs -/

namespace Pilot

/-- The same decisions have been taken, and the next one has nearly the same threshold. -/
structure Near (ε : Int) (s t : Pilot) : Prop where
  control : s.control = t.control
  location : s.location = t.location
  average : Ccd.NearAverage ε s.average t.average

theorem Near.step {ε : Int} {s t : Pilot} (h : Near ε s t) {frame frame' : Frame}
    (hc : Ccd.Clear ε s.average frame) (hclose : Ccd.Close ε frame frame') :
    s.status frame = t.status frame' ∧ Near ε (s.step frame) (t.step frame') := by
  have hs : s.status frame = t.status frame' := hc.status hclose h.average
  have havg : Ccd.NearAverage ε (s.nextAverage frame) (t.nextAverage frame') :=
    hc.nextAverage hclose h.average
  have hl := h.location
  refine ⟨hs, ?_⟩
  unfold Pilot.step
  rw [← h.control]
  cases hctl : s.control with
  | tracking =>
    show Near ε (s.track frame) (t.track frame')
    unfold track
    rw [← hs]
    cases s.status frame with
    | normal => exact ⟨h.control, hl, havg⟩
    | platform => exact ⟨rfl, congrArg (· + 1) hl, havg⟩
    | noTrack => exact ⟨rfl, hl, havg⟩
  | discarding => exact ⟨rfl, hl, havg⟩
  | leaving =>
    refine ⟨?_, hl, havg⟩
    dsimp only
    rw [hs]
  | halted => exact h
  | btMode => exact h

theorem step_mode {s : Pilot} (h : s.control ≠ .btMode) (frame : Frame) :
    (s.step frame).control ≠ .btMode := by
  unfold Pilot.step
  cases hc : s.control with
  | btMode => exact absurd hc h
  | halted => exact h
  | discarding => simp
  | leaving =>
    dsimp only
    split <;> simp
  | tracking =>
    unfold track
    cases s.status frame with
    | normal => exact h
    | platform => simp
    | noTrack => simp

end Pilot

theorem Car.classification_eq_pilot (c : Car) (inp : Inputs) : c.classification inp =
    if c.control = .btMode ∨ c.control = .halted then none
    else some (c.pilot.status inp.frame) := by
  unfold Car.classification
  cases hc : c.control <;> simp [Car.status_eq_pilot]

/-- Two runs of the tracking loop, with whatever calibration: what the steps of their pilots keep
and tell of the status, the runs keep and tell. -/
theorem tracking_rel {R : Pilot → Pilot → Prop} {C : Pilot → Frame → Prop}
    {Q : Frame → Frame → Prop} (hinit : R Pilot.machine.init Pilot.machine.init)
    (hcontrol : ∀ s t, R s t → s.control = t.control)
    (hstep : ∀ s t frame frame', R s t → C s frame → Q frame frame' →
      s.status frame = t.status frame' ∧ R (s.step frame) (t.step frame'))
    (p q : Prelude) (bestRecord bestRecord' : ExplosureRecord) {is js : List Inputs}
    (hQ : List.Forall₂ (fun i j => Q i.frame j.frame) is js)
    (hC : ∀ pre i post, is = pre ++ i :: post →
      C ((trackingMachine p bestRecord).run pre).pilot i.frame) :
    (trackingMachine p bestRecord).labels Car.classification is =
        (trackingMachine q bestRecord').labels Car.classification js ∧
      R ((trackingMachine p bestRecord).run is).pilot
        ((trackingMachine q bestRecord').run js).pilot := by
  have hstart : R (trackingMachine p bestRecord).init.pilot
      (trackingMachine q bestRecord').init.pilot := by
    rw [pilot_init, pilot_init]
    exact hinit
  have hcar : ∀ (c d : Car) (i j : Inputs), R c.pilot d.pilot ∧ c.control ≠ .btMode →
      C c.pilot i.frame → Q i.frame j.frame →
      (R (c.step i).pilot (d.step j).pilot ∧ (c.step i).control ≠ .btMode) ∧
        c.classification i = d.classification j := by
    rintro c d i j ⟨hR, hmode⟩ hc hq
    obtain ⟨hs, hnext⟩ := hstep _ _ _ _ hR hc hq
    have hcd : c.control = d.control := hcontrol _ _ hR
    have hci := Car.step_pilot hmode i
    refine ⟨⟨?_, ?_⟩, ?_⟩
    · rw [hci, Car.step_pilot (hcd ▸ hmode) j]
      exact hnext
    · show (c.step i).pilot.control ≠ .btMode
      rw [hci]
      exact Pilot.step_mode hmode i.frame
    · rw [Car.classification_eq_pilot, Car.classification_eq_pilot, ← hcd, hs]
  obtain ⟨⟨hrun, -⟩, hlabels⟩ := Machine.runFrom_rel (M := trackingMachine p bestRecord)
    (N := trackingMachine q bestRecord') (f := Car.classification) (g := Car.classification)
    (R := fun c d => R c.pilot d.pilot ∧ c.control ≠ .btMode)
    (C := fun c i => C c.pilot i.frame) hcar ⟨hstart, nofun⟩ hQ hC
  exact ⟨hlabels, hrun⟩

/-- **The tracking loop is robust against noise.** Take two runs, with whatever calibration, whose
frames differ by at most `ε` in every pixel of the window. If no pixel of the first run's frames is
within `2 ε` of the threshold they are binarised at, and no average stored is below `ε`, both runs
classify all their frames alike, are at the same location, and in the same state of control. -/
theorem noise_run {ε : Int} (p q : Prelude) (bestRecord bestRecord' : ExplosureRecord)
    {is js : List Inputs}
    (hclose : List.Forall₂ (fun i j => Ccd.Close ε i.frame j.frame) is js)
    (hclear : ∀ pre i post, is = pre ++ i :: post →
      Ccd.Clear ε ((trackingMachine p bestRecord).run pre).ccd.lastAvailableAverage i.frame) :
    (trackingMachine p bestRecord).labels Car.classification is =
        (trackingMachine q bestRecord').labels Car.classification js ∧
      ((trackingMachine p bestRecord).run is).location =
        ((trackingMachine q bestRecord').run js).location ∧
      ((trackingMachine p bestRecord).run is).control =
        ((trackingMachine q bestRecord').run js).control ∧
      ∀ i j : Inputs, Ccd.Close ε i.frame j.frame →
        Ccd.Clear ε ((trackingMachine p bestRecord).run is).ccd.lastAvailableAverage i.frame →
        ((trackingMachine p bestRecord).run is).status i = .normal →
        ((trackingMachine p bestRecord).run is).pilot.pixel i.frame ≤
            ((trackingMachine q bestRecord').run js).pilot.pixel j.frame + 2 ∧
          ((trackingMachine q bestRecord').run js).pilot.pixel j.frame ≤
            ((trackingMachine p bestRecord).run is).pilot.pixel i.frame + 2 := by
  obtain ⟨hlabels, hnear⟩ := tracking_rel (R := Pilot.Near ε)
    (C := fun s frame => Ccd.Clear ε s.average frame) ⟨rfl, rfl, .inl ⟨rfl, rfl⟩⟩
    (fun _ _ h => h.control) (fun _ _ _ _ h => h.step) p q bestRecord bestRecord' hclose hclear
  refine ⟨hlabels, hnear.location, hnear.control, fun i j hq hc hn => ?_⟩
  rw [Car.status_eq_pilot] at hn
  exact hc.pixel hq hnear.average hn

theorem noise_run_line :
    (trackingMachine (Car.uniformPrelude 0) (Car.uniformPrelude 0).bestRecord).labels
        Car.classification [seeing Ccd.lineFrame, seeing (Ccd.lineOf 99 4005)] =
      (trackingMachine (Car.uniformPrelude 7) (Car.uniformPrelude 0).bestRecord).labels
        Car.classification [seeing (Ccd.lineOf 103 3991), seeing (Ccd.lineOf 102 3999)] := by
  have hclose : Ccd.Close 10 (seeing Ccd.lineFrame).frame (seeing (Ccd.lineOf 103 3991)).frame := by
    decide +kernel
  have hclose' : Ccd.Close 10 (seeing (Ccd.lineOf 99 4005)).frame
      (seeing (Ccd.lineOf 102 3999)).frame := by decide +kernel
  have havg : ∀ pre, ((trackingMachine (Car.uniformPrelude 0)
      (Car.uniformPrelude 0).bestRecord).run pre).ccd.lastAvailableAverage =
        (Pilot.machine.run (pre.map Inputs.frame)).average := fun pre =>
    congrArg Pilot.average (pilot_run _ _ pre)
  refine (noise_run _ _ _ _ (.cons hclose (.cons hclose' .nil)) fun pre i post heq => ?_).1
  rw [havg]
  -- the second frame is binarised at the average of the first
  rcases pre with _ | ⟨a, _ | ⟨b, pre⟩⟩
  · obtain ⟨rfl, -⟩ := List.cons.inj heq
    exact ⟨by decide +kernel, by decide +kernel⟩
  · obtain ⟨rfl, hrest⟩ := List.cons.inj heq
    obtain ⟨rfl, -⟩ := List.cons.inj hrest
    exact ⟨by decide +kernel, by decide +kernel⟩
  · have hlen := congrArg List.length heq
    simp at hlen

end BuptCar
