import BuptCar.Proof.Noise

/-!
# Ambient light

More light adds the same amount to every pixel. Extremes, midpoints and stored averages move with
it, so the images stay the same (`raised_dark`) and with them what is found in them. The one thing
that does not move is the sentinel 0 of an average that was never stored: an average that really is
0 is forgotten in the darker run only, so the frames' midpoints have to be positive. `light_run`:
two runs that differ by such an amount steer and stop alike, exactly.
-/

namespace BuptCar

namespace Ccd

def Raised (c : Nat) (frame frame' : Frame) : Prop := ∀ i, (frame' i : Nat) = frame i + c

instance (c : Nat) (frame frame' : Frame) : Decidable (Raised c frame frame') :=
  Nat.decidableForallFin fun i => (frame' i : Nat) = frame i + c

/-- Both averages are unset, or the second is higher by `c`. -/
def RaisedAverage (c : Nat) (a b : Int) : Prop := a = 0 ∧ b = 0 ∨ 0 < a ∧ b = a + c

section
variable {c : Nat} {frame frame' : Frame} {a b : Int}

theorem Raised.avgVal (h : Raised c frame frame') : Ccd.avgVal frame' = Ccd.avgVal frame + c := by
  rw [avgVal_eq, avgVal_eq, minVal_shifted h, maxVal_shifted h]
  omega

theorem Raised.threshold (h : Raised c frame frame') (hab : RaisedAverage c a b) :
    Ccd.threshold frame' b = Ccd.threshold frame a + c := by
  rw [threshold_eq_avgVal, threshold_eq_avgVal]
  rcases hab with ⟨rfl, rfl⟩ | ⟨ha, rfl⟩
  · rw [if_pos rfl, if_pos rfl, h.avgVal]
  · rw [if_neg (by omega), if_neg (by omega)]

theorem raised_dark (h : Raised c frame frame') (hab : RaisedAverage c a b) (i : Nat) :
    (seen a frame).binaryData i = (seen b frame').binaryData i := by
  rw [seen_dark, seen_dark, decide_eq_decide, h.threshold hab]
  refine and_congr_right fun hi => ?_
  rw [linearData_shifted h hi]
  omega

theorem raised_status (h : Raised c frame frame') (hab : RaisedAverage c a b) :
    (seen a frame).imageStatus = (seen b frame').imageStatus :=
  imageStatus_binary (raised_dark h hab)

theorem raised_pixel (h : Raised c frame frame') (hab : RaisedAverage c a b) :
    (seen a frame).imagePixel = (seen b frame').imagePixel := by
  have htrack : (seen a frame).getTrackMidPixel = (seen b frame').getTrackMidPixel := by
    refine getTrackMidPixel_order (fun i _ _ => raised_dark h hab i) fun i h1 h2 => ?_
    show (load frame).linearData i < (load frame).linearData (i + 1) ↔
      (load frame').linearData i < (load frame').linearData (i + 1)
    rw [linearData_shifted h (mem_window.2 ⟨h1, by omega⟩),
      linearData_shifted h (mem_window.2 ⟨by omega, h2⟩)]
    omega
  unfold imagePixel
  rw [htrack]

end

end Ccd

/-! ## Runs -/

namespace Pilot

/-- The second pilot is the first one but for the average it stored. -/
structure Lit (c : Nat) (s t : Pilot) : Prop where
  same : t = { s with average := t.average }
  average : Ccd.RaisedAverage c s.average t.average

variable {c : Nat} {s t : Pilot} {frame frame' : Frame}

theorem Lit.nextAverage (h : Lit c s t) (hf : Ccd.Raised c frame frame')
    (hpos : 0 < Ccd.avgVal frame) :
    Ccd.RaisedAverage c (s.nextAverage frame) (t.nextAverage frame') := by
  have hs : s.status frame = t.status frame' := Ccd.raised_status hf h.average
  unfold Pilot.nextAverage
  rw [← hs]
  split
  · exact .inr ⟨hpos, hf.avgVal⟩
  · exact h.average

theorem Lit.step (h : Lit c s t) (hf : Ccd.Raised c frame frame') (hpos : 0 < Ccd.avgVal frame) :
    s.status frame = t.status frame' ∧ Lit c (s.step frame) (t.step frame') := by
  have hs : s.status frame = t.status frame' := Ccd.raised_status hf h.average
  have hp : s.pixel frame = t.pixel frame' := Ccd.raised_pixel hf h.average
  have havg := h.nextAverage hf hpos
  obtain ⟨average, rfl⟩ : ∃ average, t = { s with average := average } := ⟨_, h.same⟩
  obtain ⟨a, control, location, pid, servo⟩ := s
  refine ⟨hs, ?_⟩
  unfold Pilot.step
  cases control with
  | tracking =>
    dsimp only
    unfold track steer
    rw [← hs, ← hp]
    cases status ⟨a, .tracking, location, pid, servo⟩ frame with
    | normal => exact ⟨rfl, havg⟩
    | platform => exact ⟨rfl, havg⟩
    | noTrack => exact ⟨rfl, havg⟩
  | discarding => exact ⟨rfl, havg⟩
  | leaving =>
    dsimp only
    rw [← hs]
    exact ⟨rfl, havg⟩
  | halted => exact h
  | btMode => exact h

end Pilot

/-- **The tracking loop does not depend on the ambient light.** Take two runs, with whatever
calibration, the second with `c` added to every pixel. If the frames of the first have positive
midpoints, both runs classify all frames alike, are in the same state of control, at the same
location, and steer alike, to the PID's memory and the servo's duty. -/
theorem light_run {c : Nat} (p q : Prelude) (bestRecord bestRecord' : ExplosureRecord)
    {is js : List Inputs} (hraised : List.Forall₂ (fun i j => Ccd.Raised c i.frame j.frame) is js)
    (hpos : ∀ i ∈ is, 0 < Ccd.avgVal i.frame) :
    let s := (trackingMachine p bestRecord).run is
    let t := (trackingMachine q bestRecord').run js
    (trackingMachine p bestRecord).labels Car.classification is =
        (trackingMachine q bestRecord').labels Car.classification js ∧
      s.control = t.control ∧ s.location = t.location ∧ s.angelPID = t.angelPID ∧
      s.chassis.ledc 0 = t.chassis.ledc 0 := by
  intro s t
  obtain ⟨hlabels, hlit⟩ := tracking_rel (R := Pilot.Lit c)
    (C := fun _ frame => 0 < Ccd.avgVal frame) ⟨rfl, .inl ⟨rfl, rfl⟩⟩
    (fun _ _ h => (congrArg Pilot.control h.same).symm)
    (fun _ _ _ _ h hpos hraised => h.step hraised hpos) p q bestRecord bestRecord' hraised
    fun pre i post heq => hpos i (heq ▸ List.mem_append_right pre List.mem_cons_self)
  have hsame := hlit.same
  exact ⟨hlabels, (congrArg Pilot.control hsame).symm, (congrArg Pilot.location hsame).symm,
    (congrArg Pilot.pid hsame).symm, (congrArg Pilot.servo hsame).symm⟩

theorem light_run_line : Ccd.avgVal (seeing Ccd.lineFrame).frame = 2050 ∧
    ((trackingMachine (Car.uniformPrelude 0) (Car.uniformPrelude 0).bestRecord).run
        [seeing Ccd.lineFrame, seeing Ccd.lineFrame]).chassis.ledc 0 =
      ((trackingMachine (Car.uniformPrelude 7) (Car.uniformPrelude 0).bestRecord).run
        [seeing (Ccd.lineOf 150 4050), seeing (Ccd.lineOf 150 4050)]).chassis.ledc 0 := by
  have hraised : Ccd.Raised 50 (seeing Ccd.lineFrame).frame
      (seeing (Ccd.lineOf 150 4050)).frame := by decide +kernel
  have hpos : Ccd.avgVal (seeing Ccd.lineFrame).frame = 2050 := by decide +kernel
  refine ⟨hpos, (light_run _ _ _ _ (.cons hraised (.cons hraised .nil)) fun i hi => ?_).2.2.2.2⟩
  rw [List.mem_cons, List.mem_singleton, or_self] at hi
  rw [hi, hpos]
  decide

end BuptCar
