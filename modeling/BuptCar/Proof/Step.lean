import BuptCar.Proof.Commands
import BuptCar.Proof.Frames
import BuptCar.Task2

/-!
# What one step of the car can do

An iteration of the tracking loop is `react`, on the state and the status of `sensed`
(`trackingLoop_eq`). Every step but a platform stop is `Quiet` (`step_quiet`): it sends nothing,
reads no colour and keeps location and package.
-/

namespace BuptCar

/-! ## The logs -/

def Event.message : Event → Option Text
  | .sent message => some message
  | _ => none

def Event.color : Event → Option Int
  | .colored color => some color
  | _ => none

def Event.status : Event → Option Status
  | .classified status => some status
  | _ => none

namespace Car

def sent (c : Car) : List Text := c.trace.filterMap Event.message

def colors (c : Car) : List Int := c.trace.filterMap Event.color

/-- Nothing is sent, read or counted between `c` and `d`. -/
structure Quiet (c d : Car) : Prop where
  location : d.location = c.location
  data : d.data = c.data
  sent : d.sent = c.sent
  colors : d.colors = c.colors

theorem Quiet.refl (c : Car) : Quiet c c := ⟨rfl, rfl, rfl, rfl⟩

theorem Quiet.trans {c d e : Car} (h1 : Quiet c d) (h2 : Quiet d e) : Quiet c e where
  location := h2.location.trans h1.location
  data := h2.data.trans h1.data
  sent := h2.sent.trans h1.sent
  colors := h2.colors.trans h1.colors

/-- A step that appends only events without message and colour. -/
theorem Quiet.of_append {c d : Car} (es : List Event) (hl : d.location = c.location)
    (hd : d.data = c.data) (ht : d.trace = c.trace ++ es)
    (hs : es.filterMap Event.message = []) (hc : es.filterMap Event.color = []) : Quiet c d where
  location := hl
  data := hd
  sent := by rw [Car.sent, ht, List.filterMap_append, hs, List.append_nil, Car.sent]
  colors := by rw [Car.colors, ht, List.filterMap_append, hc, List.append_nil, Car.colors]

/-! ## The calibration -/

theorem calibrationEvents_silent {α : Type} {f : Event → Option α}
    (hf : ∀ frame ms, (captureEvents ms frame).filterMap f = []) (frames : Nat → Frame × Frame) :
    (calibrationEvents frames).filterMap f = [] := by
  rw [List.filterMap_eq_nil_iff]
  intro e he
  obtain ⟨i, -, hi⟩ := List.mem_flatMap.1 he
  rcases List.mem_append.1 hi with hi | hi
  · exact List.filterMap_eq_nil_iff.1 (hf _ _) e hi
  · exact List.filterMap_eq_nil_iff.1 (hf _ _) e hi

/-! ## Frames -/

section
variable (explosureTime : Int) (resetAndExplosure : Bool) (inp : Inputs)

theorem processEvents_message :
    (processEvents explosureTime resetAndExplosure inp).filterMap Event.message = [] := by
  cases resetAndExplosure <;> rfl

theorem processEvents_color :
    (processEvents explosureTime resetAndExplosure inp).filterMap Event.color = [] := by
  cases resetAndExplosure <;> rfl

/-- The status depends on neither reference parameter nor on a first capture. -/
theorem processCCD_status (trackMidPixel : Int) (c : Car) :
    (c.ccd.processCCD trackMidPixel resetAndExplosure inp.resetFrame inp.frame).tracingStatus =
      c.status inp := by
  rw [status, Ccd.processCCD_eq, Ccd.processCCD_eq, Ccd.classify_status, Ccd.classify_status]

theorem quiet_processCCD (trackMidPixel : Int) (c : Car) :
    Quiet c (c.processCCD explosureTime resetAndExplosure trackMidPixel inp).1 :=
  .of_append _ rfl rfl rfl
    (by rw [List.filterMap_append, processEvents_message]; rfl)
    (by rw [List.filterMap_append, processEvents_color]; rfl)

end

/-! ## The kind of a step -/

section
variable {c : Car} {inp : Inputs}

theorem step_tracking (h : c.control = .tracking) : c.step inp = c.trackingLoop inp := by
  rw [step, h]

theorem step_discarding (h : c.control = .discarding) : c.step inp = c.discardFrame inp := by
  rw [step, h]

theorem step_leaving (h : c.control = .leaving) : c.step inp = c.awaitTrack inp := by
  rw [step, h]

theorem step_halted (h : c.control = .halted) : c.step inp = c.blink := by rw [step, h]

theorem classification_halted (h : c.control = .halted) : c.classification inp = none := by
  rw [classification, h]

theorem classification_eq
    (h : c.control = .tracking ∨ c.control = .discarding ∨ c.control = .leaving) :
    c.classification inp = some (c.status inp) := by
  rcases h with h | h | h <;> rw [classification, h]

end

/-! ## An iteration of the tracking loop -/

section
variable (inp : Inputs) (c : Car)

/-- The state in which an iteration calls `autoTrack`. -/
def begun : Car := (c.beginLoop inp).2.2

/-- The state at the switches of `autoTrack`, and the two values they read. -/
def sensed : Car × Int × Status :=
  (c.begun inp).sense (c.begun inp).bestRecord.explosureTime (c.beginLoop inp).1
    (c.beginLoop inp).2.1 inp

theorem trackingLoop_eq : c.trackingLoop inp =
    (c.sensed inp).1.react (motorAimSpeed inp) (c.sensed inp).2.1 (c.sensed inp).2.2 inp := rfl

theorem sensed_blankRGB : (c.sensed inp).1.blankRGB = c.blankRGB := by
  unfold sensed sense
  split <;> rfl

theorem sense_status (bestExplosureTime substractedExplosureTime : Int) (initStarting : Bool) :
    (c.sense bestExplosureTime substractedExplosureTime initStarting inp).2.2 = c.status inp := by
  unfold sense
  split
  · exact processCCD_status true inp 0 c
  · exact processCCD_status false inp 0 c

theorem sensed_status : (c.sensed inp).2.2 = c.status inp := sense_status inp (c.begun inp) _ _ _

theorem quiet_sense (bestExplosureTime substractedExplosureTime : Int) (initStarting : Bool) :
    Quiet c (c.sense bestExplosureTime substractedExplosureTime initStarting inp).1 := by
  unfold sense
  split
  · exact quiet_processCCD _ true inp 0 c
  · exact quiet_processCCD _ false inp 0 c

theorem quiet_begun : Quiet c (c.begun inp) := .of_append _ rfl rfl rfl rfl rfl

theorem quiet_sensed : Quiet c (c.sensed inp).1 :=
  (quiet_begun inp c).trans (quiet_sense inp (c.begun inp) _ _ _)

end

theorem quiet_react {trackStatus : Status} (h : trackStatus ≠ .platform) (aim : ℚ)
    (trackMidPixel : Int) (inp : Inputs) (c : Car) :
    Quiet c (c.react aim trackMidPixel trackStatus inp) := by
  cases trackStatus with
  | normal => exact ⟨rfl, rfl, rfl, rfl⟩
  | noTrack => exact ⟨rfl, rfl, rfl, rfl⟩
  | platform => exact absurd rfl h

/-! ## Behind a platform -/

section
variable {inp : Inputs} {c : Car}

theorem awaitTrack_normal (h : c.status inp = .normal) : c.awaitTrack inp =
    { (c.processCCD c.bestRecord.explosureTime true 0 inp).1 with
      control := .tracking, returnFromPlatform := some true } :=
  if_pos ((processCCD_status true inp 0 c).trans h)

theorem awaitTrack_other (h : c.status inp ≠ .normal) :
    c.awaitTrack inp = (c.processCCD c.bestRecord.explosureTime true 0 inp).1 :=
  if_neg fun hs => h ((processCCD_status true inp 0 c).symm.trans hs)

end

theorem quiet_discardFrame (inp : Inputs) (c : Car) : Quiet c (c.discardFrame inp) := by
  obtain ⟨hl, hd, hs, hc⟩ := quiet_processCCD c.bestRecord.explosureTime true inp 0 c
  exact ⟨hl, hd, hs, hc⟩

theorem quiet_awaitTrack (inp : Inputs) (c : Car) : Quiet c (c.awaitTrack inp) := by
  obtain ⟨hl, hd, hs, hc⟩ := quiet_processCCD c.bestRecord.explosureTime true inp 0 c
  by_cases h : c.status inp = .normal
  · rw [awaitTrack_normal h]
    exact ⟨hl, hd, hs, hc⟩
  · rw [awaitTrack_other h]
    exact ⟨hl, hd, hs, hc⟩

theorem quiet_delay (ms : Int) (c : Car) : Quiet c (c.delay ms) :=
  .of_append [.delay ms] rfl rfl rfl rfl rfl

/-- The Bluetooth loop waits for a connection, then interprets one command a pass. -/
theorem btLoop_cases (inp : Inputs) (c : Car) : ∃ b,
    c.btLoop inp = { c with connected := b } ∨
    c.btLoop inp = { c with
      connected := b, chassis := c.chassis.parseCommands inp.btRecieve }.delay 20 := by
  unfold btLoop
  cases hc : c.connected with
  | true => exact ⟨true, .inr (by simp [hc])⟩
  | false =>
    cases inp.btConnected with
    | true => exact ⟨true, .inr (by simp)⟩
    | false => exact ⟨c.connected, .inl (if_neg (by simp [hc]))⟩

theorem quiet_btLoop (inp : Inputs) (c : Car) : Quiet c (c.btLoop inp) := by
  obtain ⟨b, h | h⟩ := btLoop_cases inp c
  · rw [h]
    exact ⟨rfl, rfl, rfl, rfl⟩
  · rw [h]
    exact .of_append [.delay 20] rfl rfl rfl rfl rfl

theorem quiet_blink (c : Car) : Quiet c c.blink :=
  .of_append [.delay 1000] rfl rfl rfl rfl rfl

/-- Every step but a platform stop is quiet. -/
theorem step_quiet {inp : Inputs} {c : Car}
    (h : ¬(c.control = .tracking ∧ c.status inp = .platform)) : Quiet c (c.step inp) := by
  unfold step
  cases hc : c.control with
  | btMode => exact quiet_btLoop inp c
  | discarding => exact quiet_discardFrame inp c
  | leaving => exact quiet_awaitTrack inp c
  | halted => exact quiet_blink c
  | tracking =>
    show Quiet c (c.trackingLoop inp)
    rw [trackingLoop_eq, sensed_status]
    exact (quiet_sensed inp c).trans (quiet_react (fun hs => h ⟨hc, hs⟩) _ _ inp _)

/-! ## A platform stop -/

section
variable (inp : Inputs) (c : Car)

theorem arrive_location : (c.arrive inp).location = c.location + 1 := rfl

theorem arrive_data : (c.arrive inp).data = c.data := rfl

theorem arrive_sent : (c.arrive inp).sent = c.sent := by
  simp [arrive, readColor, emit, delay, sent, servoWritePixel, motorBrake, getColorDelays,
    Event.message]

theorem arrive_colors : (c.arrive inp).colors = c.colors ++ [(c.arrive inp).color] := by
  simp [arrive, readColor, emit, delay, colors, servoWritePixel, motorBrake, getColorDelays]
  rfl

def reported : BtData :=
  if c.location.tmod platformNum = 0 then
    (c.data.setCargo c.location c.color).setCount (c.location.tdiv platformNum)
  else c.data.setCargo c.location c.color

def messages : List Text :=
  if c.location.tmod platformNum = 0 then [platformReached, c.reported.encode]
  else [platformReached]

theorem report_eq : c.report =
    { c with data := c.reported, trace := c.trace ++ c.messages.map Event.sent } := by
  unfold report messages reported
  by_cases h : c.location.tmod platformNum = 0
  · simp [h, btSend, emit]
  · simp [h, btSend, emit]

theorem filterMap_sent (messages : List Text) :
    (messages.map Event.sent).filterMap Event.message = messages ∧
      (messages.map Event.sent).filterMap Event.color = [] := by
  induction messages with
  | nil => exact ⟨rfl, rfl⟩
  | cons m ms ih => exact ⟨congrArg (m :: ·) ih.1, ih.2⟩

theorem report_sent : c.report.sent = c.sent ++ c.messages := by
  rw [report_eq, sent, List.filterMap_append, (filterMap_sent _).1, sent]

theorem report_colors : c.report.colors = c.colors := by
  rw [report_eq, colors, List.filterMap_append, (filterMap_sent _).2, List.append_nil, colors]

/-- What is left of a platform stop behind its messages. -/
theorem quiet_platformStop (aim : ℚ) :
    Quiet (c.arrive inp).report (c.platformStop aim inp) :=
  (quiet_delay 2000 (c.arrive inp).report).trans ⟨rfl, rfl, rfl, rfl⟩

end

/-! ## Control and motors -/

section
variable (inp : Inputs) (c : Car)

theorem sense_control (bestExplosureTime substractedExplosureTime : Int) (initStarting : Bool) :
    (c.sense bestExplosureTime substractedExplosureTime initStarting inp).1.control =
      c.control := by
  unfold sense
  split <;> rfl

theorem sense_chassis (bestExplosureTime substractedExplosureTime : Int) (initStarting : Bool) :
    (c.sense bestExplosureTime substractedExplosureTime initStarting inp).1.chassis =
      c.chassis := by
  unfold sense
  split <;> rfl

theorem sensed_control : (c.sensed inp).1.control = c.control :=
  sense_control inp (c.begun inp) _ _ _

theorem sensed_chassis : (c.sensed inp).1.chassis = c.chassis :=
  sense_chassis inp (c.begun inp) _ _ _

/-- Where the switches of `autoTrack` leave the control. -/
def controlAfter (control : Control) : Status → Control
  | .normal => control
  | .platform => .discarding
  | .noTrack => .halted

theorem react_control (aim : ℚ) (trackMidPixel : Int) (trackStatus : Status) :
    (c.react aim trackMidPixel trackStatus inp).control = controlAfter c.control trackStatus := by
  cases trackStatus <;> rfl

theorem awaitTrack_chassis : (c.awaitTrack inp).chassis = c.chassis := by
  by_cases h : c.status inp = .normal
  · rw [awaitTrack_normal h]
    rfl
  · rw [awaitTrack_other h]
    rfl

theorem report_chassis : c.report.chassis = c.chassis := by rw [report_eq]

theorem stop_eq {ch : Chassis} (h : ch.maxResolution = 65535) :
    { ch with ledc := BuptCar.servoWritePixel 64 ch.ledc }.motorBrake =
      { ch with ledc := ledcWrite 0 centreDuty ch.ledc }.drive (65535, 65535) := by
  rw [servoWritePixel_centre]
  exact Chassis.motorBrake_eq h

/-- Halting brakes both motors and centres the servo. -/
theorem halt_chassis (h : c.chassis.maxResolution = 65535) :
    c.halt.chassis.left = (65535, 65535) ∧ c.halt.chassis.right = (65535, 65535) ∧
      c.halt.chassis.ledc 0 = centreDuty := by
  have heq : c.halt.chassis = _ := stop_eq h
  rw [heq]
  exact ⟨rfl, rfl, ledcWrite_same 0 centreDuty c.chassis.ledc⟩

end

/-- Steps never change the resolution `initMotor` sets. -/
theorem step_maxResolution {c : Car} (h : c.chassis.maxResolution = 65535) (inp : Inputs) :
    (c.step inp).chassis.maxResolution = 65535 := by
  unfold step
  cases c.control with
  | btMode =>
    obtain ⟨b, hb | hb⟩ := btLoop_cases inp c
    · exact (congrArg (·.chassis.maxResolution) hb).trans h
    · exact (congrArg (·.chassis.maxResolution) hb).trans (Chassis.parseCommands_maxResolution h)
  | discarding => exact h
  | leaving =>
    show (c.awaitTrack inp).chassis.maxResolution = 65535
    rw [awaitTrack_chassis, h]
  | halted => exact h
  | tracking =>
    have hs := (congrArg Chassis.maxResolution (sensed_chassis inp c)).trans h
    show (c.trackingLoop inp).chassis.maxResolution = 65535
    rw [trackingLoop_eq]
    cases (c.sensed inp).2.2 with
    | normal => exact (Chassis.motorForward_maxResolution ..).trans hs
    | platform =>
      exact (Chassis.motorForward_maxResolution ..).trans
        ((congrArg Chassis.maxResolution (report_chassis _)).trans hs)
    | noTrack => exact hs

/-! ## What the loops keep -/

theorem react_kept (aim : ℚ) (trackMidPixel : Int) (trackStatus : Status) (inp : Inputs) (c : Car) :
    (c.react aim trackMidPixel trackStatus inp).bestRecord = c.bestRecord ∧
      (c.react aim trackMidPixel trackStatus inp).prevTime = c.prevTime := by
  cases trackStatus with
  | normal => exact ⟨rfl, rfl⟩
  | noTrack => exact ⟨rfl, rfl⟩
  | platform =>
    rw [react, platformStop, report_eq]
    exact ⟨rfl, rfl⟩

theorem sensed_kept (inp : Inputs) (c : Car) : (c.sensed inp).1.bestRecord = c.bestRecord ∧
    (c.sensed inp).1.prevTime = toInt32 inp.millis := by
  unfold sensed sense
  split <;> exact ⟨rfl, rfl⟩

/-- The loops do not write the best record, and only the iterations of the tracking loop read the
clock. -/
theorem step_kept (inp : Inputs) (c : Car) : (c.step inp).bestRecord = c.bestRecord ∧
    (c.step inp).prevTime = if c.control = .tracking then toInt32 inp.millis else c.prevTime := by
  unfold step
  cases hc : c.control with
  | btMode =>
    obtain ⟨b, h | h⟩ := btLoop_cases inp c
    · rw [h]
      exact ⟨rfl, rfl⟩
    · rw [h]
      exact ⟨rfl, rfl⟩
  | discarding => exact ⟨rfl, rfl⟩
  | leaving =>
    by_cases h : c.status inp = .normal
    · rw [awaitTrack_normal h]
      exact ⟨rfl, rfl⟩
    · rw [awaitTrack_other h]
      exact ⟨rfl, rfl⟩
  | halted => exact ⟨rfl, rfl⟩
  | tracking =>
    rw [trackingLoop_eq]
    obtain ⟨hb, hp⟩ := sensed_kept inp c
    obtain ⟨hb', hp'⟩ := react_kept (motorAimSpeed inp) (c.sensed inp).2.1 (c.sensed inp).2.2 inp
      (c.sensed inp).1
    exact ⟨hb'.trans hb, hp'.trans hp⟩

end Car

end BuptCar
