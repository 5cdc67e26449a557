import BuptCar.Proof.Exposure
import BuptCar.Proof.Tracking

/-!
# No stale exposure is classified

The pixels integrate light from one SI pulse to the next, so a frame is stale if a delay lies
between its SI pulse and the one before. `Exposing` follows a trace: it marks a delay behind the
last pulse, and at the next pulse the frame as stale.

After every step of the tracking loop, a frame that would be stale is not used: the next capture is
reset, by the time record that is missing or by `returnFromPlatform` (`Exposed.delayed`), which is
assigned wherever there is a time record (`Exposed.assigned`). So no classified frame is stale
(`fresh_exposures`).
-/

namespace BuptCar

/-! ## The exposure in a trace -/

/-- `delayed`: a delay lies behind the last SI pulse; `stale`: one lies between the last two. -/
structure Exposing where
  delayed : Bool
  stale : Bool

namespace Exposing

def step (m : Exposing) : Event → Exposing
  | .si => { delayed := false, stale := m.delayed }
  | .delay _ => { m with delayed := true }
  | _ => m

def machine : Machine Exposing Event := ⟨⟨false, false⟩, step⟩

/-- Labels the stale frames that are classified. -/
def staleFrame (m : Exposing) : Event → Option Status
  | .classified status => if m.stale then some status else none
  | _ => none

theorem stale_runFrom (m : Exposing) {es : List Event} (h : Event.si ∉ es) :
    (machine.runFrom m es).stale = m.stale := by
  refine Machine.runFrom_invariant_mem (M := machine) (P := fun n => n.stale = m.stale) rfl ?_
  intro n e he hn
  cases e with
  | si => exact absurd he h
  | _ => exact hn

/-- A delay is remembered up to the next pulse. -/
theorem delayed_runFrom (m : Exposing) {es rest : List Event} {ms : Int} (h : Event.si ∉ rest) :
    (machine.runFrom m (es ++ .delay ms :: rest)).delayed = true := by
  rw [Machine.runFrom_append, Machine.runFrom_cons]
  refine Machine.runFrom_invariant_mem (M := machine) (P := fun n => n.delayed = true) rfl ?_
  intro n e he hn
  cases e with
  | si => exact absurd he h
  | delay ms => rfl
  | _ => exact hn

/-- A trace without a stale classification has no delay between the SI pulse of a classified frame
and the one before. -/
theorem no_delay_between {es pre mid rest post : List Event} {status : Status}
    (h : machine.labels staleFrame es = [])
    (heq : es = pre ++ .si :: mid ++ .si :: rest ++ .classified status :: post)
    (hmid : Event.si ∉ mid) (hrest : Event.si ∉ rest) (ms : Int) : Event.delay ms ∉ mid := by
  intro hms
  obtain ⟨es, more, rfl⟩ := List.append_of_mem hms
  have hmore : Event.si ∉ more := fun hm =>
    hmid (List.mem_append_right _ (List.mem_cons_of_mem _ hm))
  have hnone := (Machine.labels_eq_nil_iff machine staleFrame _).1 h _ _ _ heq
  have hstale : (machine.run (pre ++ .si :: (es ++ .delay ms :: more) ++ .si :: rest)).stale =
      true := by
    rw [Machine.run_append, Machine.runFrom_cons, stale_runFrom _ hrest]
    show (machine.run (pre ++ .si :: (es ++ .delay ms :: more))).delayed = true
    rw [← List.cons_append, ← List.append_assoc]
    exact delayed_runFrom _ hmore
  rw [staleFrame, hstale] at hnone
  exact absurd hnone (by simp)

theorem labelsFrom_unclassified (m : Exposing) {es : List Event}
    (h : es.filterMap Event.status = []) : machine.labelsFrom staleFrame m es = [] := by
  rw [Machine.labelsFrom_eq_nil_iff]
  intro pre e post heq
  have he : e.status = none := List.filterMap_eq_nil_iff.1 h e (by simp [heq])
  cases e with
  | classified status => exact absurd he (by simp [Event.status])
  | _ => rfl

section
variable {es : List Event} {explosureTime : Int} {reset : Bool} {inp : Inputs} {status : Status}

/-- A frame is not stale if it is reset or no delay lies behind the last pulse. -/
theorem labels_frame {tail : List Event} (h : machine.labels staleFrame es = [])
    (hreset : (machine.run es).delayed = true → reset = true)
    (htail : tail.filterMap Event.status = []) :
    machine.labels staleFrame
      (es ++ (Car.processEvents explosureTime reset inp ++ .classified status :: tail)) = [] := by
  have hframe : machine.labelsFrom staleFrame (machine.run es)
      (Car.processEvents explosureTime reset inp) = [] := by
    cases reset <;> rfl
  have hstale : (machine.runFrom (machine.run es)
      (Car.processEvents explosureTime reset inp)).stale = false := by
    cases reset with
    | true => rfl
    | false => exact Bool.eq_false_iff.2 fun hd => Bool.false_ne_true (hreset hd)
  have hrun := Machine.labelsFrom_append machine staleFrame machine.init es
    (Car.processEvents explosureTime reset inp ++ .classified status :: tail)
  rw [Machine.labels, hrun, Machine.labelsFrom_append]
  refine List.append_eq_nil_iff.2 ⟨h, List.append_eq_nil_iff.2 ⟨hframe, ?_⟩⟩
  refine List.append_eq_nil_iff.2 ⟨?_, labelsFrom_unclassified _ htail⟩
  rw [Option.toList_eq_nil_iff]
  exact if_neg (fun hs => Bool.false_ne_true (hstale.symm.trans hs))

/-- Behind a frame the next exposure begins without a delay. -/
theorem delayed_frame : (machine.run (es ++
    (Car.processEvents explosureTime reset inp ++ [.classified status]))).delayed = false := by
  rw [Machine.run_append]
  cases reset <;> rfl

end

end Exposing

namespace Car

/-! ## The reset -/

/-- `initStarting`: without a time record `returnFromPlatform` is not read. -/
theorem beginLoop_initStarting (inp : Inputs) (c : Car) : (c.beginLoop inp).2.1 =
    (decide ((c.getTime inp.millis).1 = -1) ||
      c.returnFromPlatform.getD (decide (inp.undef ≠ 0))) := rfl

/-- The invariant of the tracking loop: the trace has no stale frame, and where the next one would
be stale its capture is going to be reset. -/
structure Exposed (c : Car) : Prop where
  fresh : Exposing.machine.labels Exposing.staleFrame c.trace = []
  mode : c.control ≠ .btMode
  assigned : c.control = .tracking → c.returnFromPlatform = none → c.prevTime = 0
  delayed : c.control = .tracking → (Exposing.machine.run c.trace).delayed = true →
    c.prevTime = 0 ∨ c.returnFromPlatform = some true

theorem Exposed.initStarting {c : Car} (h : Exposed c) (hc : c.control = .tracking)
    (hd : (Exposing.machine.run c.trace).delayed = true) (inp : Inputs) :
    (c.beginLoop inp).2.1 = true := by
  rw [beginLoop_initStarting]
  rcases h.delayed hc hd with hp | hr
  · rw [getTime_unset hp]
    rfl
  · rw [hr]
    exact Bool.or_true _

theorem init_trace (p : Prelude) (bestRecord : ExplosureRecord) :
    (trackingMachine p bestRecord).init.trace =
      [Event.delay 400] ++ getColorDelays ++ [Event.delay 100] ++ getColorDelays ++
        [Event.delay 1000] ++ (calibrationEvents p.frames ++ [.delay 2000]) ++ [.delay 1000] := rfl

theorem exposed_init (p : Prelude) (bestRecord : ExplosureRecord) :
    Exposed (trackingMachine p bestRecord).init where
  fresh := by
    rw [init_trace]
    refine Exposing.labelsFrom_unclassified _ ?_
    simp only [List.filterMap_append, calibrationEvents_silent (f := Event.status) fun _ _ => rfl]
    rfl
  mode := fun h => by cases h
  assigned := fun _ _ => rfl
  delayed := fun _ _ => .inl rfl

/-- A step that ends a log without stale frames with a frame that is reset where needed. -/
theorem exposed_of_frame {d : Car} {es tail : List Event} {explosureTime : Int} {reset : Bool}
    {inp : Inputs} {status : Status}
    (ht : d.trace =
      es ++ (processEvents explosureTime reset inp ++ .classified status :: tail))
    (hes : Exposing.machine.labels Exposing.staleFrame es = [])
    (hreset : (Exposing.machine.run es).delayed = true → reset = true)
    (htail : tail.filterMap Event.status = []) (hmode : d.control ≠ .btMode)
    (htracking : d.control = .tracking → tail = [] ∧ d.returnFromPlatform ≠ none) : Exposed d where
  fresh := by
    rw [ht]
    exact Exposing.labels_frame hes hreset htail
  mode := hmode
  assigned := fun hc hn => absurd hn (htracking hc).2
  delayed := fun hc hd => by
    rw [ht, (htracking hc).1, Exposing.delayed_frame] at hd
    exact absurd hd Bool.false_ne_true

theorem Exposed.trackingLoop {c : Car} (h : Exposed c) (hc : c.control = .tracking)
    (inp : Inputs) : Exposed (c.trackingLoop inp) := by
  obtain ⟨tail, ht, htail, hn⟩ := trackingLoop_trace inp c
  have hctl := trackingLoop_control hc inp
  rw [List.append_cons] at ht
  refine exposed_of_frame ht ?_ (fun hd => h.initStarting hc ?_ inp) htail ?_ ?_
  · rw [Machine.labels_concat, h.fresh]
    rfl
  · rwa [Machine.run_concat] at hd
  · rw [hctl]
    cases c.status inp <;> exact fun hm => by cases hm
  · intro htr
    have hs : c.status inp = .normal := by
      rw [hctl] at htr
      cases hs : c.status inp with
      | normal => rfl
      | platform => rw [hs] at htr; cases htr
      | noTrack => rw [hs] at htr; cases htr
    refine ⟨hn hs, ?_⟩
    rw [trackingLoop_eq, sensed_status, hs]
    exact fun hnone => by cases hnone

/-! ## Behind a platform -/

section
variable {c : Car} (h : c.control = .discarding ∨ c.control = .leaving) (inp : Inputs)
include h

/-- Every capture is reset. -/
theorem behind_trace : (c.step inp).trace = c.trace ++
    (processEvents c.bestRecord.explosureTime true inp ++ [.classified (c.status inp)]) := by
  rcases h with hc | hc
  · rw [step_discarding hc]
    exact processCCD_trace inp c _ true 0
  · rw [step_leaving hc]
    by_cases hs : c.status inp = .normal
    · rw [awaitTrack_normal hs]
      exact processCCD_trace inp c _ true 0
    · rw [awaitTrack_other hs]
      exact processCCD_trace inp c _ true 0

theorem behind_control : (c.step inp).control = .leaving ∨
    (c.step inp).control = .tracking ∧ (c.step inp).returnFromPlatform = some true := by
  rcases h with hc | hc
  · rw [step_discarding hc]
    exact .inl rfl
  · rw [step_leaving hc]
    by_cases hs : c.status inp = .normal
    · rw [awaitTrack_normal hs]
      exact .inr ⟨rfl, rfl⟩
    · rw [awaitTrack_control hc, if_neg hs]
      exact .inl rfl

theorem Exposed.behind (he : Exposed c) : Exposed (c.step inp) := by
  refine exposed_of_frame (behind_trace h inp) he.fresh (fun _ => rfl) rfl ?_ ?_
  · rcases behind_control h inp with hctl | ⟨hctl, -⟩
    · simp [hctl]
    · simp [hctl]
  · rcases behind_control h inp with hctl | ⟨-, hr⟩
    · simp [hctl]
    · simp [hr]

end

/-! ## Runs -/

theorem Exposed.blink {c : Car} (h : Exposed c) (hc : c.control = .halted) : Exposed c.blink := by
  have ht : c.blink.trace = c.trace ++ [.delay 1000] := rfl
  have hctl : c.blink.control = .halted := hc
  refine ⟨?_, by simp [hctl], by simp [hctl], by simp [hctl]⟩
  rw [ht, Machine.labels_concat, h.fresh]
  rfl

theorem Exposed.step {c : Car} (h : Exposed c) (inp : Inputs) : Exposed (c.step inp) := by
  cases hc : c.control with
  | btMode => exact absurd hc h.mode
  | tracking =>
    rw [step_tracking hc]
    exact h.trackingLoop hc inp
  | discarding => exact Exposed.behind (.inl hc) inp h
  | leaving => exact Exposed.behind (.inr hc) inp h
  | halted =>
    rw [step_halted hc]
    exact h.blink hc

theorem exposed_run (p : Prelude) (bestRecord : ExplosureRecord) (is : List Inputs) :
    Exposed ((trackingMachine p bestRecord).run is) :=
  Machine.run_invariant (M := trackingMachine p bestRecord) (exposed_init p bestRecord)
    (fun _ inp h => h.step inp) is

/-- Behind a delay the next frame is captured with a reset. -/
theorem Exposed.step_reset {c : Car} (h : Exposed c) (hc : c.control ≠ .halted)
    (hd : (Exposing.machine.run c.trace).delayed = true) (inp : Inputs) :
    ∃ es post status, (c.step inp).trace = c.trace ++ es ++
        captureEvents c.bestRecord.explosureTime inp.resetFrame ++ captureEvents 0 inp.frame ++
        .classified status :: post ∧ Event.si ∉ es := by
  have hbehind : c.control = .discarding ∨ c.control = .leaving →
      ∃ es post status, (c.step inp).trace = c.trace ++ es ++
        captureEvents c.bestRecord.explosureTime inp.resetFrame ++ captureEvents 0 inp.frame ++
        .classified status :: post ∧ Event.si ∉ es := by
    intro hc
    refine ⟨[], [], c.status inp, ?_, List.not_mem_nil⟩
    rw [behind_trace hc, processEvents, if_pos rfl]
    simp only [List.append_assoc, List.nil_append]
  cases hctl : c.control with
  | btMode => exact absurd hctl h.mode
  | halted => exact absurd hctl hc
  | discarding => exact hbehind (.inl hctl)
  | leaving => exact hbehind (.inr hctl)
  | tracking =>
    obtain ⟨tail, ht, -⟩ := trackingLoop_trace inp c
    rw [h.initStarting hctl hd inp, if_pos rfl, processEvents, if_pos rfl] at ht
    rw [step_tracking hctl, ht]
    refine ⟨[.iterate (c.getTime inp.millis).1 (c.beginLoop inp).1 true], tail, c.status inp,
      ?_, by simp⟩
    simp only [List.append_assoc, List.cons_append, List.nil_append]

/-- **No stale exposure is classified.** In the trace of every run, no delay lies between the SI
pulse of a classified frame and the one before; the frame after a delay is captured behind a reset
capture; and with a time record, `returnFromPlatform` is assigned. -/
theorem fresh_exposures (p : Prelude) (bestRecord : ExplosureRecord) (is : List Inputs) :
    let c := (trackingMachine p bestRecord).run is
    (∀ pre mid rest post status,
      c.trace = pre ++ .si :: mid ++ .si :: rest ++ .classified status :: post →
      Event.si ∉ mid → Event.si ∉ rest → ∀ ms, Event.delay ms ∉ mid) ∧
    (c.control ≠ .halted → (∃ pre ms mid, c.trace = pre ++ .delay ms :: mid ∧ Event.si ∉ mid) →
      ∀ inp, ∃ es post status, (c.step inp).trace = c.trace ++ es ++
          captureEvents c.bestRecord.explosureTime inp.resetFrame ++ captureEvents 0 inp.frame ++
          .classified status :: post ∧ Event.si ∉ es) ∧
    (c.control = .tracking → ∀ millis, (c.getTime millis).1 ≠ -1 →
      c.returnFromPlatform ≠ none) := by
  intro c
  have h : Exposed c := exposed_run p bestRecord is
  refine ⟨fun pre mid rest post status heq hmid hrest ms => ?_, fun hc hdelay inp => ?_,
    fun hc millis ht hn => ?_⟩
  · exact Exposing.no_delay_between h.fresh heq hmid hrest ms
  · obtain ⟨pre, ms, mid, heq, hmid⟩ := hdelay
    refine h.step_reset hc ?_ inp
    rw [heq]
    exact Exposing.delayed_runFrom _ hmid
  · exact ht (getTime_unset (h.assigned hc hn) millis)

end Car

end BuptCar
