import BuptCar.Proof.Noise

/-!
# Memory and steady state of the pilot

What the pilot keeps of its past is the stored average and the previous error of the steering PID
(its integral has gain 0). One NORMAL frame overwrites the average (`Alike`), a second one the error
(`Synced`), a third one the servo's duty: `history_forgotten` compares two runs with any histories.

In front of a steady line the loop stays where it is: `steady_line` for a constant frame,
`noisy_line` for frames within `ε` of one.
-/

namespace BuptCar

open scoped List

/-! ## The steering request -/

/-- The gains of `angelPID`; no step changes them. -/
structure AngelGains (pid : Pid) : Prop where
  Kp : pid.Kp = angleKp
  Ki : pid.Ki = angleKi
  Kd : pid.Kd = angleKd

theorem angelGains : AngelGains angelPID := ⟨rfl, rfl, rfl⟩

/-- The servo's duty for an argument of `servoWritePixel`. -/
def dutyAt (trackMidPoint : Int) : Nat := servoWritePixel trackMidPoint (fun _ => 0) 0

theorem dutyAt_mono {p q : Int} (h : p ≤ q) : dutyAt p ≤ dutyAt q := by
  obtain ⟨hl, hr⟩ := toInt_cAngleLimit
  have hmap := Arduino.map_mono (show (0 : Int) < 128 by decide)
    (show toInt (-cAngleLimit) ≤ toInt cAngleLimit by omega) h
  simp only [dutyAt, servoWritePixel, servoWriteAngle, ledcWrite_same]
  exact servoDuty_mono (servoPulse_mono (servoAngle_mono (by exact_mod_cast hmap)))

/-- The integral has no part in the request. -/
theorem AngelGains.steeredPixel {pid : Pid} (h : AngelGains pid) (p : Int) :
    (steeredPixel pid p).1 =
      toInt ((p : ℚ) + (((p - 64 : Int) : ℚ) - pid.previousError) / 10) := by
  show toInt ((pid.update ((p - 64 : Int) : ℚ)).pidValue + 64) = _
  rw [Pid.update_pidValue, h.Kp, h.Ki, h.Kd]
  congr 1
  push_cast
  norm_num [angleKp, angleKi, angleKd]
  ring

theorem AngelGains.steeringDuty {pid : Pid} (h : AngelGains pid) (p : Int) :
    steeringDuty pid (fun _ => 0) p =
      dutyAt (toInt ((p : ℚ) + (((p - 64 : Int) : ℚ) - pid.previousError) / 10)) := by
  rw [← h.steeredPixel]
  rfl

namespace Pilot

/-! ## What a step does to each part -/

def nextControl : Control → Status → Control
  | .tracking, .normal => .tracking
  | .tracking, .platform => .discarding
  | .tracking, .noTrack => .halted
  | .discarding, _ => .leaving
  | .leaving, .normal => .tracking
  | .leaving, _ => .leaving
  | .halted, _ => .halted
  | .btMode, _ => .btMode

section
variable (s : Pilot) (frame : Frame)

theorem step_control : (s.step frame).control = nextControl s.control (s.status frame) := by
  unfold Pilot.step
  cases hc : s.control with
  | tracking =>
    dsimp only
    unfold track
    cases s.status frame with
    | normal => exact hc
    | platform => rfl
    | noTrack => rfl
  | discarding => rfl
  | leaving => cases s.status frame <;> rfl
  | halted => exact hc
  | btMode => exact hc

theorem step_average : (s.step frame).average =
    if s.control = .halted ∨ s.control = .btMode then s.average else s.nextAverage frame := by
  unfold Pilot.step
  cases s.control with
  | tracking =>
    dsimp only
    unfold track
    cases s.status frame <;> rfl
  | _ => rfl

theorem step_location : (s.step frame).location =
    s.location + if s.control = .tracking ∧ s.status frame = .platform then 1 else 0 := by
  unfold Pilot.step
  cases s.control with
  | tracking =>
    dsimp only
    unfold track
    cases s.status frame <;> simp
  | _ => simp

theorem step_gains (h : AngelGains s.pid) : AngelGains (s.step frame).pid := by
  unfold Pilot.step
  cases s.control with
  | tracking =>
    dsimp only
    unfold track
    cases s.status frame with
    | normal => exact ⟨h.Kp, h.Ki, h.Kd⟩
    | platform => exact h
    | noTrack => exact ⟨h.Kp, h.Ki, h.Kd⟩
  | _ => exact h

theorem step_previous : (s.step frame).pid.previousError =
    if s.control = .tracking then
      match s.status frame with
      | .normal => ((s.pixel frame - 64 : Int) : ℚ)
      | .platform => s.pid.previousError
      | .noTrack => 0
    else s.pid.previousError := by
  unfold Pilot.step
  cases s.control with
  | tracking =>
    dsimp only
    unfold track
    cases s.status frame <;> rfl
  | _ => rfl

theorem step_servo : (s.step frame).servo =
    if s.control = .tracking then
      if s.status frame = .normal then s.steer frame else centreDuty
    else s.servo := by
  unfold Pilot.step
  cases s.control with
  | tracking =>
    dsimp only
    unfold track
    cases s.status frame <;> rfl
  | _ => rfl

end

/-! ## Alignment of two histories -/

/-- The same decisions lie ahead; `d` platforms more are behind `t`. -/
structure Alike (d : Int) (s t : Pilot) : Prop where
  control : s.control = t.control
  average : s.average = t.average
  location : t.location = s.location + d
  gains : AngelGains s.pid
  gains' : AngelGains t.pid

/-- The same steering requests lie ahead. -/
structure Synced (d : Int) (s t : Pilot) : Prop extends Alike d s t where
  previous : s.pid.previousError = t.pid.previousError

section
variable {d : Int} {s t : Pilot}

theorem Alike.status (h : Alike d s t) (frame : Frame) : s.status frame = t.status frame := by
  unfold Pilot.status
  rw [h.average]

theorem Alike.pixel (h : Alike d s t) (frame : Frame) : s.pixel frame = t.pixel frame := by
  unfold Pilot.pixel
  rw [h.average]

theorem Alike.step (h : Alike d s t) (frame : Frame) : Alike d (s.step frame) (t.step frame) where
  control := by rw [step_control, step_control, h.control, h.status]
  average := by
    rw [step_average, step_average, h.control, nextAverage, nextAverage, h.status, h.average]
  location := by
    rw [step_location, step_location, h.control, h.status, h.location]
    omega
  gains := step_gains s frame h.gains
  gains' := step_gains t frame h.gains'

theorem Synced.step (h : Synced d s t) (frame : Frame) :
    Synced d (s.step frame) (t.step frame) := by
  refine ⟨h.toAlike.step frame, ?_⟩
  rw [step_previous, step_previous, h.control, h.status, h.pixel, h.previous]

/-- A frame that both histories find NORMAL makes them alike. -/
theorem alike_of_normal (hs : s.control = .tracking) (ht : t.control = .tracking)
    (gs : AngelGains s.pid) (gt : AngelGains t.pid) {frame : Frame}
    (hns : s.status frame = .normal) (hnt : t.status frame = .normal) :
    Alike (t.location - s.location) (s.step frame) (t.step frame) where
  control := by rw [step_control, step_control, hs, ht, hns, hnt]
  average := by
    rw [step_average, step_average, hs, ht, if_neg (by decide), if_neg (by decide), nextAverage,
      nextAverage, if_pos hns, if_pos hnt]
  location := by
    rw [step_location, step_location, hs, ht, hns, hnt]
    simp
  gains := step_gains s frame gs
  gains' := step_gains t frame gt

/-- A NORMAL frame stores the same error in pilots that are alike. -/
theorem Alike.synced (h : Alike d s t) (hs : s.control = .tracking) {frame : Frame}
    (hn : s.status frame = .normal) : Synced d (s.step frame) (t.step frame) := by
  refine ⟨h.step frame, ?_⟩
  rw [step_previous, step_previous, ← h.control, hs, ← h.status, hn, h.pixel, if_pos rfl,
    if_pos rfl]

/-- A tracked frame turns the servos of synced pilots alike; they stay so. -/
theorem Synced.servo (h : Synced d s t) {frame : Frame}
    (hs : s.control = .tracking ∨ s.servo = t.servo) :
    (s.step frame).servo = (t.step frame).servo := by
  rw [step_servo, step_servo, ← h.control, ← h.status]
  have hsteer : s.steer frame = t.steer frame := by
    rw [Pilot.steer, Pilot.steer, h.gains.steeringDuty, h.gains'.steeringDuty, h.pixel, h.previous]
  by_cases hc : s.control = .tracking
  · rw [if_pos hc, if_pos hc, hsteer]
  · rw [if_neg hc, if_neg hc]
    exact hs.resolve_left hc

end

/-! ## Runs -/

def classification (s : Pilot) (frame : Frame) : Option Status :=
  if s.control = .btMode ∨ s.control = .halted then none else some (s.status frame)

theorem Alike.classification {d : Int} {s t : Pilot} (h : Alike d s t) (frame : Frame) :
    s.classification frame = t.classification frame := by
  rw [Pilot.classification, Pilot.classification, h.control, h.status]

theorem Alike.run {d : Int} {s t : Pilot} (h : Alike d s t) (frames : List Frame) :
    Alike d (machine.runFrom s frames) (machine.runFrom t frames) ∧
      machine.labelsFrom Pilot.classification s frames =
        machine.labelsFrom Pilot.classification t frames :=
  ⟨Machine.runFrom_congr (fun _ _ frame h => h.step frame) h frames,
    Machine.labelsFrom_congr (fun _ _ frame h => h.classification frame)
      (fun _ _ frame h => h.step frame) h frames⟩

/-- The first frame of a run labelled NORMAL is tracked by a pilot that tracks. -/
theorem normal_cons {s : Pilot} (hs : s.control = .tracking) {frames : List Frame}
    {statuses : List Status}
    (h : .normal :: statuses <+: machine.labelsFrom classification s frames) :
    ∃ frame rest, frames = frame :: rest ∧ s.status frame = .normal ∧
      (s.step frame).control = .tracking ∧
      statuses <+: machine.labelsFrom classification (s.step frame) rest := by
  cases frames with
  | nil => simp [Machine.labelsFrom] at h
  | cons frame rest =>
    have hlabel : s.classification frame = some (s.status frame) := by
      rw [classification, hs, if_neg (by decide)]
    rw [Machine.labelsFrom, hlabel] at h
    obtain ⟨hn, hrest⟩ := List.cons_prefix_cons.1 h
    refine ⟨frame, rest, rfl, hn.symm, ?_, hrest⟩
    rw [step_control, hs, ← hn]
    rfl

/-- Alike pilots that then find two frames NORMAL turn their servos alike for ever. -/
theorem Alike.servo_run {d : Int} {s t : Pilot} (h : Alike d s t) (hs : s.control = .tracking)
    {frames : List Frame}
    (hn : [.normal, .normal] <+: machine.labelsFrom Pilot.classification s frames) :
    (machine.runFrom s frames).servo = (machine.runFrom t frames).servo := by
  obtain ⟨frame, rest, rfl, hn1, hs1, hrest⟩ := normal_cons hs hn
  obtain ⟨frame', rest, rfl, -, -, -⟩ := normal_cons hs1 hrest
  have h1 : Synced d (s.step frame) (t.step frame) := h.synced hs hn1
  have h2 : Synced d ((s.step frame).step frame') ((t.step frame).step frame') ∧
      ((s.step frame).step frame').servo = ((t.step frame).step frame').servo :=
    ⟨h1.step frame', h1.servo (.inl hs1)⟩
  refine (Machine.runFrom_congr (M := machine) (N := machine)
    (R := fun s t => Synced d s t ∧ s.servo = t.servo) ?_ h2 rest).2
  intro s t frame h
  exact ⟨h.1.step frame, h.1.servo (.inr h.2)⟩

end Pilot

/-! ## Histories of the car -/

section
variable (p : Prelude) (bestRecord : ExplosureRecord)

/-- A run of the car from any state of the tracking loop is one of its pilot. -/
theorem pilot_runFrom {c : Car} (h : c.control ≠ .btMode) (is : List Inputs) :
    ((trackingMachine p bestRecord).runFrom c is).pilot =
        Pilot.machine.runFrom c.pilot (is.map Inputs.frame) ∧
      (trackingMachine p bestRecord).labelsFrom Car.classification c is =
        Pilot.machine.labelsFrom Pilot.classification c.pilot (is.map Inputs.frame) := by
  have hframes : List.Forall₂ (fun i frame => i.frame = frame) is (is.map Inputs.frame) :=
    List.forall₂_map_right_iff.2 (List.forall₂_same.2 fun _ _ => rfl)
  have hstep : ∀ (c : Car) (s : Pilot) (i : Inputs) (frame : Frame),
      c.pilot = s ∧ c.control ≠ .btMode → True → i.frame = frame →
      ((c.step i).pilot = s.step frame ∧ (c.step i).control ≠ .btMode) ∧
        c.classification i = s.classification frame := by
    rintro c _ i _ ⟨rfl, hc⟩ - rfl
    have hpilot := Car.step_pilot hc i
    refine ⟨⟨hpilot, ?_⟩, Car.classification_eq_pilot c i⟩
    show (c.step i).pilot.control ≠ .btMode
    rw [hpilot]
    exact Pilot.step_mode hc i.frame
  obtain ⟨⟨hrun, -⟩, hlabels⟩ := Machine.runFrom_rel (M := trackingMachine p bestRecord)
    (N := Pilot.machine) (f := Car.classification) (g := Pilot.classification)
    (R := fun c s => c.pilot = s ∧ c.control ≠ .btMode) (C := fun _ _ => True)
    hstep ⟨rfl, h⟩ hframes (fun _ _ _ _ => trivial)
  exact ⟨hrun, hlabels⟩

theorem gains_run (is : List Inputs) :
    AngelGains ((trackingMachine p bestRecord).run is).angelPID := by
  show AngelGains ((trackingMachine p bestRecord).run is).pilot.pid
  rw [pilot_run]
  exact Machine.run_invariant (M := Pilot.machine) (P := fun s => AngelGains s.pid) angelGains
    (fun s frame h => Pilot.step_gains s frame h) _

end

/-- **The past is forgotten after three good frames.** Take two runs of the tracking loop with any
histories that both find a frame NORMAL. Whatever frames follow, they are classified alike, leave
both cars in the same state of control, and the same number of platforms is counted; and if the
first two of them are NORMAL, the servos are turned alike from then on. -/
theorem history_forgotten (p q : Prelude) (bestRecord bestRecord' : ExplosureRecord)
    {is js ks ls : List Inputs} {i j : Inputs}
    (hi : ((trackingMachine p bestRecord).run is).control = .tracking)
    (hj : ((trackingMachine q bestRecord').run js).control = .tracking)
    (hni : ((trackingMachine p bestRecord).run is).status i = .normal)
    (hnj : ((trackingMachine q bestRecord').run js).status j = .normal)
    (hframe : i.frame = j.frame) (hframes : ks.map Inputs.frame = ls.map Inputs.frame) :
    let c := (trackingMachine p bestRecord).run (is ++ [i])
    let d := (trackingMachine q bestRecord').run (js ++ [j])
    let c' := (trackingMachine p bestRecord).runFrom c ks
    let d' := (trackingMachine q bestRecord').runFrom d ls
    (trackingMachine p bestRecord).labelsFrom Car.classification c ks =
        (trackingMachine q bestRecord').labelsFrom Car.classification d ls ∧
      c'.control = d'.control ∧ c'.location - c.location = d'.location - d.location ∧
      ([.normal, .normal] <+: (trackingMachine p bestRecord).labelsFrom Car.classification c ks →
        c'.chassis.ledc 0 = d'.chassis.ledc 0) := by
  intro c d c' d'
  have hc : c = ((trackingMachine p bestRecord).run is).step i := Machine.run_concat _ is i
  have hd : d = ((trackingMachine q bestRecord').run js).step j := Machine.run_concat _ js j
  have gi := gains_run p bestRecord is
  have gj := gains_run q bestRecord' js
  generalize (trackingMachine p bestRecord).run is = s at hi hni gi hc
  generalize (trackingMachine q bestRecord').run js = t at hj hnj gj hd
  rw [Car.status_eq_pilot] at hni hnj
  rw [← hframe] at hnj
  have hcp : c.pilot = s.pilot.step i.frame := by rw [hc, Car.step_pilot (by simp [hi])]
  have hdp : d.pilot = t.pilot.step i.frame := by
    rw [hd, Car.step_pilot (by simp [hj]), hframe]
  have halike := Pilot.alike_of_normal (s := s.pilot) (t := t.pilot) hi hj gi gj hni hnj
  have hctl : c.pilot.control = .tracking := by
    rw [hcp, Pilot.step_control, hni, show s.pilot.control = .tracking from hi]
    rfl
  rw [← hcp, ← hdp] at halike
  have hdctl : d.pilot.control = .tracking := halike.control.symm.trans hctl
  obtain ⟨hcrun, hclabels⟩ := pilot_runFrom p bestRecord
    (c := c) (by rw [show c.control = .tracking from hctl]; decide) ks
  obtain ⟨hdrun, hdlabels⟩ := pilot_runFrom q bestRecord'
    (c := d) (by rw [show d.control = .tracking from hdctl]; decide) ls
  rw [← hframes] at hdrun hdlabels
  obtain ⟨hafter, hlabels⟩ := halike.run (ks.map Inputs.frame)
  rw [← hcrun, ← hdrun] at hafter
  rw [hclabels, hdlabels]
  have hl0 : d.location = c.location + _ := halike.location
  have hl1 : d'.location = c'.location + _ := hafter.location
  refine ⟨hlabels, hafter.control, by omega, fun hn => ?_⟩
  have hservo := halike.servo_run hctl hn
  rw [← hcrun, ← hdrun] at hservo
  exact hservo

/-- The first frame of one history is the second of the other. -/
theorem history_forgotten_line :
    let c := (trackingMachine (Car.uniformPrelude 0) (Car.uniformPrelude 0).bestRecord).run
      ([] ++ [seeing Ccd.lineFrame])
    let d := (trackingMachine (Car.uniformPrelude 7) (Car.uniformPrelude 0).bestRecord).run
      ([seeing Ccd.lineFrame] ++ [seeing Ccd.lineFrame])
    let ks := [seeing Ccd.lineFrame, seeing Ccd.lineFrame]
    (trackingMachine (Car.uniformPrelude 0) (Car.uniformPrelude 0).bestRecord).labelsFrom
        Car.classification c ks =
      (trackingMachine (Car.uniformPrelude 7) (Car.uniformPrelude 0).bestRecord).labelsFrom
        Car.classification d ks ∧
    ((trackingMachine (Car.uniformPrelude 0) (Car.uniformPrelude 0).bestRecord).runFrom
        c ks).chassis.ledc 0 =
      ((trackingMachine (Car.uniformPrelude 7) (Car.uniformPrelude 0).bestRecord).runFrom
        d ks).chassis.ledc 0 := by
  intro c d ks
  have hpilot : ∀ p : Prelude, ∀ is, ((trackingMachine p (Car.uniformPrelude 0).bestRecord).run
      is).pilot = Pilot.machine.run (is.map Inputs.frame) := fun p is => pilot_run p _ is
  obtain ⟨hlabels, -, -, hservo⟩ := @history_forgotten (Car.uniformPrelude 0)
    (Car.uniformPrelude 7) (Car.uniformPrelude 0).bestRecord (Car.uniformPrelude 0).bestRecord
    [] [seeing Ccd.lineFrame] ks ks (seeing Ccd.lineFrame) (seeing Ccd.lineFrame) rfl
    (by
      show (Car.pilot _).control = _
      rw [hpilot]
      decide +kernel)
    (by
      rw [Car.status_eq_pilot, hpilot]
      decide +kernel)
    (by
      rw [Car.status_eq_pilot, hpilot]
      decide +kernel) rfl rfl
  refine ⟨hlabels, hservo ?_⟩
  have hc : c.pilot = _ := hpilot (Car.uniformPrelude 0) ([] ++ [seeing Ccd.lineFrame])
  have hmode : c.control ≠ .btMode := by
    show c.pilot.control ≠ .btMode
    rw [hc]
    decide +kernel
  rw [show (trackingMachine (Car.uniformPrelude 0) (Car.uniformPrelude 0).bestRecord).run
    ([] ++ [seeing Ccd.lineFrame]) = c from rfl, (pilot_runFrom _ _ hmode ks).2, hc]
  decide +kernel

/-! ## A steady line -/

namespace Pilot

/-- The pilot in front of `frame`: nothing but this frame has been seen. -/
structure Settled (frame : Frame) (s : Pilot) : Prop where
  control : s.control = .tracking
  location : s.location = 0
  average : s.average = 0 ∨ s.average = Ccd.avgVal frame
  gains : AngelGains s.pid

theorem settled_init (frame : Frame) : Settled frame machine.init :=
  ⟨rfl, rfl, .inl rfl, angelGains⟩

section
variable {frame : Frame} {s : Pilot}

/-- The frame's own average is its threshold in any case. -/
theorem Settled.threshold (h : Settled frame s) :
    Ccd.threshold frame s.average = Ccd.threshold frame 0 := by
  rw [Ccd.threshold_eq_avgVal, Ccd.threshold_eq_avgVal, if_pos rfl]
  rcases h.average with h0 | havg
  · rw [if_pos h0]
  · rw [havg]
    exact ite_self _

theorem Settled.seen (h : Settled frame s) :
    (Ccd.seen s.average frame).binaryData = (Ccd.seen 0 frame).binaryData := by
  funext i
  rw [Ccd.seen_dark, Ccd.seen_dark, h.threshold]

theorem Settled.status (h : Settled frame s) : s.status frame = (Ccd.seen 0 frame).imageStatus :=
  Ccd.imageStatus_congr rfl h.seen

theorem Settled.pixel (h : Settled frame s) : s.pixel frame = (Ccd.seen 0 frame).imagePixel :=
  Ccd.imagePixel_congr rfl h.seen

theorem Settled.step (h : Settled frame s) (hn : (Ccd.seen 0 frame).imageStatus = .normal) :
    Settled frame (s.step frame) := by
  have hs : s.status frame = .normal := h.status.trans hn
  refine ⟨?_, ?_, .inr ?_, step_gains s frame h.gains⟩
  · rw [step_control, h.control, hs]
    rfl
  · rw [step_location, h.control, hs, h.location]
    rfl
  · rw [step_average, h.control, if_neg (by decide), nextAverage, if_pos hs]

end

/-! ## Following a line -/

/-- In the states `P` the pilot finds a line within `e` of the position `x` on every frame that is
`ok`, and stays in `P`. -/
structure Follows (x e : Int) (ok : Frame → Prop) (P : Pilot → Prop) : Prop where
  init : P machine.init
  step : ∀ s frame, ok frame → P s → P (s.step frame)
  control : ∀ s, P s → s.control = .tracking
  location : ∀ s, P s → s.location = 0
  gains : ∀ s, P s → AngelGains s.pid
  status : ∀ s frame, ok frame → P s → s.status frame = .normal
  near : ∀ s frame, ok frame → P s → x - e ≤ s.pixel frame ∧ s.pixel frame ≤ x + e

section
variable {x e : Int} {ok : Frame → Prop} {P : Pilot → Prop}

theorem Follows.run (h : Follows x e ok P) {frames : List Frame} (hok : ∀ f ∈ frames, ok f) :
    P (machine.run frames) :=
  Machine.runFrom_invariant_mem h.init fun s f hf hs => h.step s f (hok f hf) hs

theorem Follows.labels (h : Follows x e ok P) {frames : List Frame} (hok : ∀ f ∈ frames, ok f) :
    machine.labels classification frames = List.replicate frames.length .normal := by
  refine Machine.labelsFrom_eq_replicate h.init (fun s f hf hs => ⟨h.step s f (hok f hf) hs, ?_⟩)
  rw [classification, h.control s hs, if_neg (by decide), h.status s f (hok f hf) hs]

/-- The error stored by a frame. -/
theorem Follows.previous (h : Follows x e ok P) {s : Pilot} (hs : P s) {frame : Frame}
    (hok : ok frame) : ((x - e - 64 : Int) : ℚ) ≤ (s.step frame).pid.previousError ∧
      (s.step frame).pid.previousError ≤ ((x + e - 64 : Int) : ℚ) := by
  obtain ⟨h1, h2⟩ := h.near s frame hok hs
  rw [step_previous, h.control s hs, if_pos rfl, h.status s frame hok hs]
  exact ⟨Int.cast_le.2 (by omega), Int.cast_le.2 (by omega)⟩

/-- A request from a stored error of the line: the derivative adds a tenth of `2 e` at most. -/
theorem Follows.steer (h : Follows x e ok P) {s : Pilot} (hs : P s) {frame : Frame}
    (hok : ok frame) {m : Int} (hm : 12 * e ≤ 10 * m)
    (hprev : ((x - e - 64 : Int) : ℚ) ≤ s.pid.previousError ∧
      s.pid.previousError ≤ ((x + e - 64 : Int) : ℚ)) :
    dutyAt (x - m) ≤ (s.step frame).servo ∧ (s.step frame).servo ≤ dutyAt (x + m) := by
  obtain ⟨h1, h2⟩ := h.near s frame hok hs
  obtain ⟨h3, h4⟩ := hprev
  have h1' : ((x - e : Int) : ℚ) ≤ (s.pixel frame : ℚ) := by exact_mod_cast h1
  have h2' : (s.pixel frame : ℚ) ≤ ((x + e : Int) : ℚ) := by exact_mod_cast h2
  have hm' : 12 * (e : ℚ) ≤ 10 * m := by exact_mod_cast hm
  rw [step_servo, h.control s hs, if_pos rfl, h.status s frame hok hs, if_pos rfl, Pilot.steer,
    (h.gains s hs).steeringDuty]
  push_cast at h1' h2' h3 h4 ⊢
  constructor
  · refine dutyAt_mono (le_trunc ?_)
    push_cast
    linarith
  · refine dutyAt_mono (trunc_le ?_)
    push_cast
    linarith

theorem Follows.servo (h : Follows x e ok P) {frames : List Frame} (hok : ∀ f ∈ frames, ok f)
    (hlen : 2 ≤ frames.length) {m : Int} (hm : 12 * e ≤ 10 * m) :
    dutyAt (x - m) ≤ (machine.run frames).servo ∧ (machine.run frames).servo ≤ dutyAt (x + m) := by
  rcases frames.eq_nil_or_concat with rfl | ⟨frames, frame, rfl⟩
  · simp at hlen
  rcases frames.eq_nil_or_concat with rfl | ⟨frames, last, rfl⟩
  · simp at hlen
  simp only [List.concat_eq_append, List.mem_append, List.mem_singleton] at hok
  have hrun : P (machine.run frames) := h.run fun f hf => hok f (.inl (.inl hf))
  rw [List.concat_eq_append, List.concat_eq_append, Machine.run_concat, Machine.run_concat]
  have hlast : ok last := hok last (.inl (.inr rfl))
  exact h.steer (h.step _ last hlast hrun) (hok frame (.inr rfl)) hm (h.previous hrun hlast)

end

theorem follows_frame {frame : Frame} (hn : (Ccd.seen 0 frame).imageStatus = .normal) :
    Follows (Ccd.seen 0 frame).imagePixel 0 (· = frame) (Settled frame) where
  init := settled_init frame
  step := by
    rintro s _ rfl hs
    exact hs.step hn
  control := fun _ hs => hs.control
  location := fun _ hs => hs.location
  gains := fun _ hs => hs.gains
  status := by
    rintro s _ rfl hs
    exact hs.status.trans hn
  near := by
    rintro s _ rfl hs
    rw [hs.pixel]
    omega

/-- A pilot near one that has seen nothing but `frame`. -/
def NearSettled (ε : Int) (frame : Frame) (t : Pilot) : Prop :=
  ∃ s, Settled frame s ∧ Near ε s t ∧ AngelGains t.pid

theorem Settled.clear {ε : Int} {frame : Frame} {s : Pilot} (h : Settled frame s)
    (hc : Ccd.Clear ε 0 frame) : Ccd.Clear ε s.average frame where
  margin := by
    rw [h.threshold]
    exact hc.margin
  bright := fun hs => hc.bright (h.status.symm.trans hs)

theorem follows_near {ε : Int} {frame : Frame} (hn : (Ccd.seen 0 frame).imageStatus = .normal)
    (hc : Ccd.Clear ε 0 frame) :
    Follows (Ccd.seen 0 frame).imagePixel 2 (Ccd.Close ε frame) (NearSettled ε frame) where
  init := ⟨_, settled_init frame, ⟨rfl, rfl, .inl ⟨rfl, rfl⟩⟩, angelGains⟩
  step := by
    rintro t frame' hclose ⟨s, hs, hnear, hg⟩
    exact ⟨_, hs.step hn, (hnear.step (hs.clear hc) hclose).2, step_gains t frame' hg⟩
  control := fun _ ⟨_, hs, hnear, _⟩ => hnear.control.symm.trans hs.control
  location := fun _ ⟨_, hs, hnear, _⟩ => hnear.location.symm.trans hs.location
  gains := fun _ ⟨_, _, _, hg⟩ => hg
  status := by
    rintro t frame' hclose ⟨s, hs, hnear, -⟩
    rw [← (hnear.step (hs.clear hc) hclose).1, hs.status, hn]
  near := by
    rintro t frame' hclose ⟨s, hs, hnear, -⟩
    have hp : s.pixel frame ≤ t.pixel frame' + 2 ∧ t.pixel frame' ≤ s.pixel frame + 2 :=
      (hs.clear hc).pixel hclose hnear.average (hs.status.trans hn)
    rw [hs.pixel] at hp
    omega

end Pilot

section
variable (p : Prelude) (bestRecord : ExplosureRecord)

theorem follows_car {x e : Int} {ok : Frame → Prop} {P : Pilot → Prop} (h : Pilot.Follows x e ok P)
    {is : List Inputs} (hok : ∀ i ∈ is, ok i.frame) :
    (trackingMachine p bestRecord).labels Car.classification is =
        List.replicate is.length .normal ∧
      ((trackingMachine p bestRecord).run is).control = .tracking ∧
      ((trackingMachine p bestRecord).run is).location = 0 ∧
      ∀ m, 12 * e ≤ 10 * m → 2 ≤ is.length →
        dutyAt (x - m) ≤ ((trackingMachine p bestRecord).run is).chassis.ledc 0 ∧
        ((trackingMachine p bestRecord).run is).chassis.ledc 0 ≤ dutyAt (x + m) := by
  have hframes : ∀ f ∈ is.map Inputs.frame, ok f := by
    intro f hf
    obtain ⟨i, hi, rfl⟩ := List.mem_map.1 hf
    exact hok i hi
  have hlen : (is.map Inputs.frame).length = is.length := List.length_map _
  have hmode : (trackingMachine p bestRecord).init.control ≠ .btMode := nofun
  obtain ⟨-, hlabels⟩ := pilot_runFrom p bestRecord hmode is
  have hrun := pilot_run p bestRecord is
  have hP := h.run hframes
  rw [← hrun] at hP
  refine ⟨?_, h.control _ hP, h.location _ hP, fun m hm h2 => ?_⟩
  · rw [Machine.labels, hlabels, pilot_init, ← hlen]
    exact h.labels hframes
  · have hservo := h.servo hframes (by omega) hm
    rw [← hrun] at hservo
    exact hservo

/-- **A steady line is tracked for ever.** While the sensor sees one frame that is NORMAL at its own
midpoint, every frame is classified NORMAL, the loop neither stops nor counts a platform, and from
the second iteration on the servo is held at the position of the line. -/
theorem steady_line {frame : Frame} (hn : (Ccd.seen 0 frame).imageStatus = .normal)
    {is : List Inputs} (hframe : ∀ i ∈ is, i.frame = frame) :
    (trackingMachine p bestRecord).labels Car.classification is =
        List.replicate is.length .normal ∧
      ((trackingMachine p bestRecord).run is).control = .tracking ∧
      ((trackingMachine p bestRecord).run is).location = 0 ∧
      (2 ≤ is.length → ((trackingMachine p bestRecord).run is).chassis.ledc 0 =
        dutyAt (Ccd.seen 0 frame).imagePixel) := by
  obtain ⟨h1, h2, h3, h4⟩ := follows_car p bestRecord (Pilot.follows_frame hn) hframe
  refine ⟨h1, h2, h3, fun hlen => ?_⟩
  obtain ⟨hlo, hhi⟩ := h4 0 (by decide) hlen
  rw [sub_zero] at hlo
  rw [add_zero] at hhi
  exact le_antisymm hhi hlo

/-- **So is a noisy one.** The same for frames within `ε` of one that is NORMAL and has no pixel
within `2 ε` of its midpoint; the servo then stays within three steps of the position of the line.
-/
theorem noisy_line {ε : Int} {frame : Frame} (hn : (Ccd.seen 0 frame).imageStatus = .normal)
    (hc : Ccd.Clear ε 0 frame) {is : List Inputs}
    (hclose : ∀ i ∈ is, Ccd.Close ε frame i.frame) :
    (trackingMachine p bestRecord).labels Car.classification is =
        List.replicate is.length .normal ∧
      ((trackingMachine p bestRecord).run is).control = .tracking ∧
      ((trackingMachine p bestRecord).run is).location = 0 ∧
      (2 ≤ is.length →
        dutyAt ((Ccd.seen 0 frame).imagePixel - 3) ≤
            ((trackingMachine p bestRecord).run is).chassis.ledc 0 ∧
          ((trackingMachine p bestRecord).run is).chassis.ledc 0 ≤
            dutyAt ((Ccd.seen 0 frame).imagePixel + 3)) := by
  obtain ⟨h1, h2, h3, h4⟩ := follows_car p bestRecord (Pilot.follows_near hn hc) hclose
  exact ⟨h1, h2, h3, h4 3 (by decide)⟩

end

theorem steady_line_found :
    (trackingMachine (Car.uniformPrelude 0) (Car.uniformPrelude 0).bestRecord).labels
        Car.classification [seeing Ccd.lineFrame, seeing Ccd.lineFrame] = [.normal, .normal] ∧
      ((trackingMachine (Car.uniformPrelude 0) (Car.uniformPrelude 0).bestRecord).run
        [seeing Ccd.lineFrame, seeing Ccd.lineFrame]).chassis.ledc 0 =
          dutyAt (Ccd.seen 0 Ccd.lineFrame).imagePixel := by
  have hframe : ∀ i ∈ [seeing Ccd.lineFrame, seeing Ccd.lineFrame], i.frame = Ccd.lineFrame := by
    simp [seeing]
  obtain ⟨hlabels, -, -, hservo⟩ := steady_line (Car.uniformPrelude 0)
    (Car.uniformPrelude 0).bestRecord (by decide +kernel) hframe
  exact ⟨hlabels, hservo (Nat.le_refl 2)⟩

theorem noisy_line_found :
    (trackingMachine (Car.uniformPrelude 0) (Car.uniformPrelude 0).bestRecord).labels
        Car.classification [seeing Ccd.lineFrame, seeing (Ccd.lineOf 103 3991)] =
          [.normal, .normal] ∧
      dutyAt ((Ccd.seen 0 Ccd.lineFrame).imagePixel - 3) ≤
        ((trackingMachine (Car.uniformPrelude 0) (Car.uniformPrelude 0).bestRecord).run
          [seeing Ccd.lineFrame, seeing (Ccd.lineOf 103 3991)]).chassis.ledc 0 ∧
      ((trackingMachine (Car.uniformPrelude 0) (Car.uniformPrelude 0).bestRecord).run
          [seeing Ccd.lineFrame, seeing (Ccd.lineOf 103 3991)]).chassis.ledc 0 ≤
        dutyAt ((Ccd.seen 0 Ccd.lineFrame).imagePixel + 3) := by
  have hclose : Ccd.Close 10 Ccd.lineFrame (Ccd.lineOf 103 3991) := by decide +kernel
  have hself : Ccd.Close 10 Ccd.lineFrame Ccd.lineFrame := by decide +kernel
  have hclear : Ccd.Clear 10 0 Ccd.lineFrame := ⟨by decide +kernel, by decide +kernel⟩
  have hall : ∀ i ∈ [seeing Ccd.lineFrame, seeing (Ccd.lineOf 103 3991)],
      Ccd.Close 10 Ccd.lineFrame i.frame :=
    List.forall_mem_cons.2 ⟨hself, List.forall_mem_singleton.2 hclose⟩
  obtain ⟨hlabels, -, -, hservo⟩ := noisy_line (Car.uniformPrelude 0)
    (Car.uniformPrelude 0).bestRecord (by decide +kernel) hclear hall
  exact ⟨hlabels, hservo (Nat.le_refl 2)⟩

end BuptCar
