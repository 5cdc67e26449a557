import BuptCar.Proof.Step

/-!
# The tracking state machine

`Tracker` is what the tracking loop does with a sequence of classifications: it counts platforms,
each once, and stops when the track is lost. `tracker_sim` shows that `Task2`'s tracking loop is
simulated by it, driven by the classifications of the run; between two platforms the tracker reads
a NORMAL frame (`Tracker.normal_mem`), so the car does.

`halted_run`: the blinking loop is never left and moves nothing.
-/

namespace BuptCar

/-! ## The tracker -/

/-- At a platform the next frame is thrown away (`discarding`), then a track is waited for
(`leaving`). -/
inductive Phase
  | tracking
  | discarding
  | leaving
  | lost
  deriving DecidableEq

structure Tracker where
  phase : Phase
  location : Int

namespace Tracker

def step (t : Tracker) (status : Status) : Tracker :=
  match t.phase, status with
  | .tracking, .normal => t
  | .tracking, .platform => { phase := .discarding, location := t.location + 1 }
  | .tracking, .noTrack => { t with phase := .lost }
  | .discarding, _ => { t with phase := .leaving }
  | .leaving, .normal => { t with phase := .tracking }
  | .leaving, _ => t
  | .lost, _ => t

def machine : Machine Tracker Status := ⟨{ phase := .tracking, location := 0 }, step⟩

theorem step_location (t : Tracker) (status : Status) : (t.step status).location =
    t.location + if t.phase = .tracking ∧ status = .platform then 1 else 0 := by
  obtain ⟨phase, location⟩ := t
  cases phase <;> cases status <;> simp [step]

/-- Only a NORMAL frame leads back to tracking. -/
theorem normal_mem {t : Tracker} (h : t.phase ≠ .tracking) {statuses : List Status}
    (htr : (machine.runFrom t statuses).phase = .tracking) : .normal ∈ statuses := by
  have hu := Machine.runFrom_unless (M := machine) (P := fun t => t.phase ≠ .tracking)
    (Q := fun _ status => status = .normal) ?_ h statuses
  · rcases hu with hp | ⟨pre, status, post, rfl, hs⟩
    · exact absurd htr hp
    · simp [hs]
  · rintro ⟨phase, location⟩ status hphase
    cases phase <;> cases status <;> simp_all [machine, step]

theorem step_phase_of_platform {t : Tracker} {status : Status} (h : t.phase = .tracking)
    (hs : status = .platform) : (t.step status).phase ≠ .tracking := by
  obtain ⟨phase, location⟩ := t
  cases h
  cases hs
  exact Phase.noConfusion

end Tracker

/-! ## The car simulates the tracker -/

/-- Where the car's control stands in each phase. -/
def Phase.control : Phase → Control
  | .tracking => .tracking
  | .discarding => .discarding
  | .leaving => .leaving
  | .lost => .halted

theorem Phase.control_eq_tracking {phase : Phase} :
    phase.control = .tracking ↔ phase = .tracking := by
  cases phase <;> simp [Phase.control]

namespace Car

/-- The car is in the tracker's phase, at its location. -/
structure Tracks (c : Car) (t : Tracker) : Prop where
  control : c.control = t.phase.control
  location : c.location = t.location

theorem trackingLoop_location (inp : Inputs) (c : Car) : (c.trackingLoop inp).location =
    c.location + if c.status inp = .platform then 1 else 0 := by
  rw [trackingLoop_eq, sensed_status]
  have hl := (quiet_sensed inp c).location
  by_cases h : c.status inp = .platform
  · rw [h, if_pos rfl, ← hl]
    refine (quiet_platformStop inp _ _).location.trans ?_
    rw [report_eq]
    rfl
  · rw [if_neg h, Int.add_zero, ← hl]
    exact (quiet_react h _ _ inp _).location

theorem trackingLoop_control {c : Car} (h : c.control = .tracking) (inp : Inputs) :
    (c.trackingLoop inp).control = controlAfter .tracking (c.status inp) := by
  rw [trackingLoop_eq, sensed_status, react_control, sensed_control, h]

theorem awaitTrack_control {c : Car} (h : c.control = .leaving) (inp : Inputs) :
    (c.awaitTrack inp).control = if c.status inp = .normal then .tracking else .leaving := by
  by_cases hs : c.status inp = .normal
  · rw [awaitTrack_normal hs, if_pos hs]
  · rw [awaitTrack_other hs, if_neg hs]
    exact h

theorem step_location (inp : Inputs) (c : Car) : (c.step inp).location = c.location +
    if c.control = .tracking ∧ c.classification inp = some .platform then 1 else 0 := by
  by_cases h : c.control = .tracking ∧ c.status inp = .platform
  · obtain ⟨hc, hs⟩ := h
    have hcl : c.classification inp = some .platform := by rw [classification_eq (.inl hc), hs]
    rw [step_tracking hc, trackingLoop_location, if_pos hs, if_pos ⟨hc, hcl⟩]
  · have hn : ¬(c.control = .tracking ∧ c.classification inp = some .platform) := by
      rintro ⟨hc, hs⟩
      rw [classification_eq (.inl hc)] at hs
      exact h ⟨hc, Option.some.inj hs⟩
    rw [(step_quiet h).location, if_neg hn, Int.add_zero]

end Car

theorem Tracker.step_tracks {c : Car} {t : Tracker} (h : c.Tracks t) (inp : Inputs) :
    (c.step inp).Tracks (machine.runFrom t (c.classification inp).toList) := by
  obtain ⟨phase, location⟩ := t
  obtain ⟨hc, hl⟩ := h
  cases phase with
  | tracking =>
    have hctl := Car.trackingLoop_control hc inp
    have hloc := c.trackingLoop_location inp
    rw [Car.step_tracking hc, Car.classification_eq (.inl hc)]
    rw [hl] at hloc
    cases hs : c.status inp with
    | normal =>
      rw [hs] at hctl hloc
      exact ⟨hctl, hloc.trans (Int.add_zero _)⟩
    | platform =>
      rw [hs] at hctl hloc
      exact ⟨hctl, hloc⟩
    | noTrack =>
      rw [hs] at hctl hloc
      exact ⟨hctl, hloc.trans (Int.add_zero _)⟩
  | discarding =>
    rw [Car.step_discarding hc, Car.classification_eq (.inr (.inl hc))]
    exact ⟨rfl, (Car.quiet_discardFrame inp c).location.trans hl⟩
  | leaving =>
    have hctl := Car.awaitTrack_control hc inp
    have hloc := (Car.quiet_awaitTrack inp c).location.trans hl
    rw [Car.step_leaving hc, Car.classification_eq (.inr (.inr hc))]
    cases hs : c.status inp with
    | normal =>
      rw [hs] at hctl
      exact ⟨hctl, hloc⟩
    | platform =>
      rw [hs] at hctl
      exact ⟨hctl, hloc⟩
    | noTrack =>
      rw [hs] at hctl
      exact ⟨hctl, hloc⟩
  | lost =>
    rw [Car.step_halted hc, Car.classification_halted hc]
    exact ⟨hc, hl⟩

/-- `Task2`'s tracking loop is simulated by the tracker. -/
theorem tracker_sim (p : Prelude) (bestRecord : ExplosureRecord) :
    (trackingMachine p bestRecord).Sim Tracker.machine Car.classification Car.Tracks where
  init := ⟨rfl, rfl⟩
  step _ _ inp h := Tracker.step_tracks h inp

/-! ## Runs -/

section
variable (p : Prelude) (bestRecord : ExplosureRecord)

theorem tracks_run (is : List Inputs) : ((trackingMachine p bestRecord).run is).Tracks
    (Tracker.machine.run ((trackingMachine p bestRecord).labels Car.classification is)) :=
  (tracker_sim p bestRecord).run is

theorem maxResolution_run (is : List Inputs) :
    ((trackingMachine p bestRecord).run is).chassis.maxResolution = 65535 :=
  Machine.run_invariant (M := trackingMachine p bestRecord)
    (P := fun c => c.chassis.maxResolution = 65535) (Chassis.initMotor_maxResolution _)
    (fun _ inp h => Car.step_maxResolution h inp) is

theorem control_of_location {c : Car} {i : Inputs} (h : (c.step i).location ≠ c.location) :
    c.control = .tracking ∧ c.classification i = some .platform := by
  by_contra hn
  rw [c.step_location i, if_neg hn, Int.add_zero] at h
  exact h rfl

/-- Between two increments of `location` a frame is classified NORMAL. -/
theorem normal_between {c : Car} {t : Tracker} (ht : c.Tracks t) {i j : Inputs} {mid : List Inputs}
    (hi : (c.step i).location ≠ c.location)
    (hj : ((trackingMachine p bestRecord).runFrom (c.step i) (mid ++ [j])).location ≠
      ((trackingMachine p bestRecord).runFrom (c.step i) mid).location) :
    Status.normal ∈
      (trackingMachine p bestRecord).labelsFrom Car.classification (c.step i) mid := by
  rw [Machine.runFrom_concat] at hj
  -- the first increment is a platform stop, which leaves the tracking phase
  obtain ⟨hc, hcl⟩ := control_of_location hi
  have hphase : t.phase = .tracking := Phase.control_eq_tracking.1 (ht.control.symm.trans hc)
  have ht1 := Tracker.step_tracks ht i
  rw [hcl] at ht1
  -- at the second, the tracker is back in it
  have ht2 := (tracker_sim p bestRecord).runFrom ht1 mid
  obtain ⟨hc2, -⟩ := control_of_location hj
  exact Tracker.normal_mem (Tracker.step_phase_of_platform hphase rfl)
    (Phase.control_eq_tracking.1 (ht2.control.symm.trans hc2))

/-- The blinking loop is never left and moves nothing. -/
theorem halted_run {c : Car} (h : c.control = .halted) (is : List Inputs) :
    ((trackingMachine p bestRecord).runFrom c is).control = .halted ∧
      ((trackingMachine p bestRecord).runFrom c is).chassis = c.chassis ∧
      c.Quiet ((trackingMachine p bestRecord).runFrom c is) := by
  refine Machine.runFrom_invariant (M := trackingMachine p bestRecord)
    (P := fun d => d.control = .halted ∧ d.chassis = c.chassis ∧ c.Quiet d) ?_
    ⟨h, rfl, .refl c⟩ is
  rintro d inp ⟨hc, hch, hq⟩
  have hst : (trackingMachine p bestRecord).step d inp = d.blink := Car.step_halted hc
  rw [hst]
  exact ⟨hc, hch, hq.trans (Car.quiet_blink d)⟩

end

theorem step_noTrack {c : Car} (hc : c.control = .tracking) {inp : Inputs}
    (hs : c.classification inp = some .noTrack) : c.step inp = (c.sensed inp).1.react
      (Car.motorAimSpeed inp) (c.sensed inp).2.1 .noTrack inp := by
  rw [Car.classification_eq (.inl hc)] at hs
  rw [Car.step_tracking hc, Car.trackingLoop_eq, Car.sensed_status, Option.some.inj hs]

/-- Behind a platform, only a NORMAL frame has an effect. -/
theorem step_behind {c : Car} (hc : c.control = .discarding ∨ c.control = .leaving)
    {inp : Inputs} (hs : c.classification inp ≠ some .normal) :
    (c.step inp).control = .leaving ∧ c.Quiet (c.step inp) := by
  rcases hc with hc | hc
  · rw [Car.step_discarding hc]
    exact ⟨rfl, Car.quiet_discardFrame inp c⟩
  · have hn : c.status inp ≠ .normal := by
      intro hn
      rw [Car.classification_eq (.inr (.inr hc)), hn] at hs
      exact hs rfl
    rw [Car.step_leaving hc, Car.awaitTrack_control hc, if_neg hn]
    exact ⟨rfl, Car.quiet_awaitTrack inp c⟩

/-- **The tracking state machine.** (a) `location` counts the platform stops, and between two of
them a NORMAL frame was read; (b) a frame without a track in the tracking state ends all motion,
with the motors braked and the servo centred; (c) behind a platform, a frame that is not NORMAL
neither halts the car nor counts nor sends. -/
theorem tracking_state_machine (p : Prelude) (bestRecord : ExplosureRecord) (is : List Inputs) :
    let M := trackingMachine p bestRecord
    let c := M.run is
    ((∀ i, (c.step i).location = c.location +
        if c.control = .tracking ∧ c.classification i = some .platform then 1 else 0) ∧
      ∀ i mid j, (c.step i).location ≠ c.location →
        (M.runFrom (c.step i) (mid ++ [j])).location ≠ (M.runFrom (c.step i) mid).location →
        Status.normal ∈ M.labelsFrom Car.classification (c.step i) mid) ∧
    (∀ i more, c.control = .tracking → c.classification i = some .noTrack →
      let d := M.runFrom (c.step i) more
      d.control = .halted ∧ d.chassis.left = (65535, 65535) ∧ d.chassis.right = (65535, 65535) ∧
        d.chassis.ledc 0 = centreDuty ∧ d.chassis.ledc = (c.step i).chassis.ledc ∧
        d.location = c.location ∧ d.sent = c.sent) ∧
    (∀ i, c.control = .discarding ∨ c.control = .leaving →
      c.classification i ≠ some .normal →
      (c.step i).control = .leaving ∧ (c.step i).location = c.location ∧
        (c.step i).sent = c.sent) := by
  intro M c
  have hres : c.chassis.maxResolution = 65535 := maxResolution_run p bestRecord is
  refine ⟨⟨fun i => c.step_location i, fun i mid j => ?_⟩, fun i more hc hs => ?_,
    fun i hc hs => ?_⟩
  · exact normal_between p bestRecord (tracks_run p bestRecord is)
  · have hst := step_noTrack hc hs
    have hq : c.Quiet (c.step i) := by
      rw [hst]
      exact (Car.quiet_sensed i c).trans (Car.quiet_react (by decide) _ _ i _)
    have hctl : (c.step i).control = .halted := by
      rw [hst, Car.react_control]
      rfl
    have hch : (c.step i).chassis = (c.sensed i).1.halt.chassis := by
      rw [hst]
      rfl
    obtain ⟨hl, hr, hservo⟩ := Car.halt_chassis (c := (c.sensed i).1)
      ((congrArg Chassis.maxResolution (Car.sensed_chassis i c)).trans hres)
    rw [← hch] at hl hr hservo
    obtain ⟨h1, h2, h3⟩ := halted_run p bestRecord hctl more
    intro d
    have h2 : d.chassis = (c.step i).chassis := h2
    rw [h2]
    exact ⟨h1, hl, hr, hservo, rfl, (hq.trans h3).location, (hq.trans h3).sent⟩
  · obtain ⟨h1, h2⟩ := step_behind hc hs
    exact ⟨h1, h2.location, h2.sent⟩

end BuptCar
