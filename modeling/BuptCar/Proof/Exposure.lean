import BuptCar.Proof.Step
import BuptCar.Proof.Threshold

/-!
# The exposure compensation of the tracking loop

`substractedExplosureTime` starts from 0, not from the best exposure time, so an iteration with a
time record hands down the delay 0 (`substractedTime_eq_zero`). It is the compensating delay
exactly where the previous loop took at least the best exposure time (`compensated_iff`).

`trackingLoop_trace`: what an iteration logs.
-/

namespace BuptCar.Car

/-! ## The trace of an iteration -/

section
variable (inp : Inputs) (c : Car)

theorem arrive_trace : ∃ es, (c.arrive inp).trace = c.trace ++ es ∧
    es.filterMap Event.status = [] := by
  refine ⟨_, by
    simp only [arrive, readColor, emit, delay, servoWritePixel, motorBrake, List.append_assoc]
    rfl, ?_⟩
  simp [getColorDelays, Event.status]

theorem report_trace : ∃ es, c.report.trace = c.trace ++ es ∧ es.filterMap Event.status = [] := by
  refine ⟨c.messages.map Event.sent, by rw [report_eq], ?_⟩
  rw [List.filterMap_map, List.filterMap_eq_nil_iff]
  exact fun _ _ => rfl

theorem platformStop_trace (aim : ℚ) : ∃ es, (c.platformStop aim inp).trace = c.trace ++ es ∧
    es.filterMap Event.status = [] := by
  obtain ⟨es1, h1, hs1⟩ := arrive_trace inp c
  obtain ⟨es2, h2, hs2⟩ := report_trace (c.arrive inp)
  have ht : (c.platformStop aim inp).trace = (c.arrive inp).report.trace ++ [.delay 2000] := rfl
  refine ⟨es1 ++ es2 ++ [.delay 2000], ?_, ?_⟩
  · rw [ht, h2, h1]
    simp only [List.append_assoc]
  · rw [List.filterMap_append, List.filterMap_append, hs1, hs2]
    rfl

/-- The switches of `autoTrack` classify nothing, and at a NORMAL frame they log nothing. -/
theorem react_trace (aim : ℚ) (trackMidPixel : Int) (trackStatus : Status) :
    ∃ es, (c.react aim trackMidPixel trackStatus inp).trace = c.trace ++ es ∧
      es.filterMap Event.status = [] ∧ (trackStatus = .normal → es = []) := by
  cases trackStatus with
  | normal => exact ⟨[], (List.append_nil _).symm, rfl, fun _ => rfl⟩
  | noTrack => exact ⟨[], (List.append_nil _).symm, rfl, fun _ => rfl⟩
  | platform =>
    obtain ⟨es, h, hs⟩ := platformStop_trace inp { c with boardLed := true } aim
    exact ⟨es, h, hs, fun hn => by simp at hn⟩

theorem processCCD_trace (explosureTime : Int) (resetAndExplosure : Bool) (trackMidPixel : Int) :
    (c.processCCD explosureTime resetAndExplosure trackMidPixel inp).1.trace = c.trace ++
      (processEvents explosureTime resetAndExplosure inp ++ [.classified (c.status inp)]) := by
  rw [← processCCD_status resetAndExplosure inp trackMidPixel]
  rfl

theorem sense_trace (bestExplosureTime substractedExplosureTime : Int) (initStarting : Bool) :
    (c.sense bestExplosureTime substractedExplosureTime initStarting inp).1.trace = c.trace ++
      (processEvents (if initStarting then bestExplosureTime else substractedExplosureTime)
        initStarting inp ++ [.classified (c.status inp)]) := by
  cases initStarting with
  | true => exact processCCD_trace inp c bestExplosureTime true 0
  | false => exact processCCD_trace inp c substractedExplosureTime false 0

/-- What an iteration logs: its start, its captures and the classification, and then no other
frame. -/
theorem trackingLoop_trace : ∃ tail, (c.trackingLoop inp).trace = c.trace ++
      (.iterate (c.getTime inp.millis).1 (c.beginLoop inp).1 (c.beginLoop inp).2.1 ::
        (processEvents (if (c.beginLoop inp).2.1 then c.bestRecord.explosureTime
          else (c.beginLoop inp).1) (c.beginLoop inp).2.1 inp ++
        .classified (c.status inp) :: tail)) ∧
    tail.filterMap Event.status = [] ∧ (c.status inp = .normal → tail = []) := by
  have hb : (c.begun inp).trace = c.trace ++
      [.iterate (c.getTime inp.millis).1 (c.beginLoop inp).1 (c.beginLoop inp).2.1] := rfl
  have hs := sense_trace inp (c.begun inp) c.bestRecord.explosureTime (c.beginLoop inp).1
    (c.beginLoop inp).2.1
  obtain ⟨tail, ht, htail, hn⟩ := react_trace inp (c.sensed inp).1 (motorAimSpeed inp)
    (c.sensed inp).2.1 (c.sensed inp).2.2
  refine ⟨tail, ?_, htail, fun hnormal => hn ((sensed_status inp c).trans hnormal)⟩
  have hsensed : (c.sensed inp).1.trace = _ := hs
  rw [trackingLoop_eq, ht, hsensed, hb]
  simp only [List.append_assoc, List.cons_append, List.nil_append]
  rfl

/-- What an iteration logs up to its classification. -/
theorem step_trace (inp : Inputs) {c : Car} (h : c.control = .tracking) :
    c.trace ++ (.iterate (c.getTime inp.millis).1 (c.beginLoop inp).1 (c.beginLoop inp).2.1 ::
      processEvents (if (c.beginLoop inp).2.1 then c.bestRecord.explosureTime
        else (c.beginLoop inp).1) (c.beginLoop inp).2.1 inp) <+: (c.step inp).trace := by
  obtain ⟨tail, ht, -⟩ := trackingLoop_trace inp c
  rw [step_tracking h, ht]
  exact (List.prefix_append_right_inj _).2
    ((List.prefix_append_right_inj [_]).2 (List.prefix_append ..))

end

/-! ## The delay -/

theorem substractedTime_eq_zero {prevTimeMs : Int} (h : 0 ≤ prevTimeMs) :
    substractedTime prevTimeMs = 0 := by
  have hne : prevTimeMs ≠ -1 := by omega
  simp only [substractedTime, hne, decide_false, Bool.not_false, if_true]
  split <;> omega

/-- The iteration compensates the previous loop's duration, where it has a time record: it hands
the rest of the best exposure time down to the capture that is not reset. -/
def Compensated (c : Car) (inp : Inputs) : Prop :=
  0 ≤ (c.getTime inp.millis).1 →
    ∃ initStarting,
      c.trace ++ (.iterate (c.getTime inp.millis).1
          (max 0 (c.bestRecord.explosureTime - (c.getTime inp.millis).1)) initStarting ::
        if initStarting then []
        else captureEvents (max 0 (c.bestRecord.explosureTime - (c.getTime inp.millis).1))
          inp.frame) <+: (c.step inp).trace

theorem eq_of_cons_prefix {α : Type} {l m m' t : List α} {a b : α} (ha : l ++ a :: m <+: t)
    (hb : l ++ b :: m' <+: t) : a = b := by
  obtain ⟨s, rfl⟩ := ha
  obtain ⟨s', hs⟩ := hb
  rw [List.append_assoc, List.append_assoc] at hs
  have := List.append_cancel_left hs
  simp only [List.cons_append, List.cons.injEq] at this
  exact this.1.symm

theorem compensated_step {c : Car} (h : c.control = .tracking) (inp : Inputs) :
    Compensated c inp ↔ (0 ≤ (c.getTime inp.millis).1 →
      c.bestRecord.explosureTime ≤ (c.getTime inp.millis).1) := by
  have ht := step_trace inp h
  have hz : 0 ≤ (c.getTime inp.millis).1 → (c.beginLoop inp).1 = 0 := substractedTime_eq_zero
  constructor
  · intro hc h0
    obtain ⟨flag, hp⟩ := hc h0
    have heq := eq_of_cons_prefix ht hp
    simp only [Event.iterate.injEq] at heq
    rw [hz h0] at heq
    omega
  · intro hc h0
    have hmax : max 0 (c.bestRecord.explosureTime - (c.getTime inp.millis).1) =
        (c.beginLoop inp).1 := by
      rw [hz h0]
      have := hc h0
      omega
    refine ⟨(c.beginLoop inp).2.1, ?_⟩
    rw [hmax]
    refine List.IsPrefix.trans ?_ ht
    cases (c.beginLoop inp).2.1 with
    | false => exact List.prefix_refl _
    | true => exact (List.prefix_append_right_inj _).2 (List.prefix_append [_] _)

/-- **The exposure is compensated iff the previous loop took long enough**: in the iterations of a
run with a time record, the delay is the rest of the best exposure time exactly if nothing is left
of it. -/
theorem compensated_iff (p : Prelude) (bestRecord : ExplosureRecord) (is : List Inputs) :
    (∀ pre inp post, is = pre ++ inp :: post →
      ((trackingMachine p bestRecord).run pre).control = .tracking →
      Compensated ((trackingMachine p bestRecord).run pre) inp) ↔
    (∀ pre inp post, is = pre ++ inp :: post →
      let c := (trackingMachine p bestRecord).run pre
      c.control = .tracking → 0 ≤ (c.getTime inp.millis).1 →
      c.bestRecord.explosureTime ≤ (c.getTime inp.millis).1) := by
  constructor
  · intro h pre inp post heq c hc
    exact (compensated_step hc inp).1 (h pre inp post heq hc)
  · intro h pre inp post heq hc
    exact (compensated_step hc inp).2 (h pre inp post heq hc)

/-! ## A run that is too fast -/

/-- A start over a line that the calibration finds at every exposure time. -/
def linePrelude : Prelude where
  blankBuff := fun _ => 0
  frames := fun _ => (Ccd.lineFrame, Ccd.lineFrame)
  bestRecord := ⟨0, 0, 0, 0, false, 0⟩

/-- The inputs of an iteration over the line at the given uptime. -/
def lineInputs (millis : Nat) : Inputs where
  millis := millis
  motorOn := false
  resetFrame := Ccd.lineFrame
  frame := Ccd.lineFrame
  pulses := 0
  speedMillis := millis
  rawBuff := fun _ => 0
  btConnected := false
  btRecieve := -1
  undef := 0

/-- **Task2 is calibrated to 60 ms, but a loop of 30 ms is followed by no delay.** -/
theorem not_compensated : ¬∀ (p : Prelude) (is : List Inputs) (inp : Inputs),
    ((task2Machine p).run is).control = .tracking → Compensated ((task2Machine p).run is) inp := by
  intro h
  have hc : ((task2Machine linePrelude).run [lineInputs 1000]).control = .tracking := by
    decide +kernel
  have hcomp := h linePrelude [lineInputs 1000] (lineInputs 1030) hc
  rw [compensated_step hc] at hcomp
  revert hcomp
  decide +kernel

end BuptCar.Car
