import BuptCar.Proof.Stale

/-!
# The timetable of a platform stop

`Stopwatch` adds up the delays of a trace from the announcement of a location to the next SI pulse.
Along every run the colour is read and the reports are sent 2860 ms behind the announcement and the
next capture begins after 4860 ms (`stop_timetable`); there is one stop for each location.
-/

namespace BuptCar

/-- The delays since the last location was announced, `none` behind the next SI pulse. -/
abbrev Stopwatch := Option Int

namespace Stopwatch

def step (w : Stopwatch) : Event → Stopwatch
  | .located _ => some 0
  | .delay ms => w.map (· + ms)
  | .si => none
  | _ => w

def machine : Machine Stopwatch Event := ⟨none, step⟩

/-- Labels the end of a stop with its duration. -/
def ended (w : Stopwatch) : Event → Option Int
  | .si => w
  | _ => none

/-- Labels what a stop makes known with the time of it. -/
def reported (w : Stopwatch) : Event → Option Int
  | .colored _ => w
  | .sent _ => w
  | _ => none

section
variable (w : Stopwatch)

/-- A capture ends a stop. -/
theorem run_frame (explosureTime : Int) (reset : Bool) (inp : Inputs) (status : Status) :
    machine.runFrom w (Car.processEvents explosureTime reset inp ++ [.classified status]) = none ∧
      machine.labelsFrom ended w
        (Car.processEvents explosureTime reset inp ++ [.classified status]) = w.toList ∧
      machine.labelsFrom reported w
        (Car.processEvents explosureTime reset inp ++ [.classified status]) = [] := by
  cases reset with
  | true => cases w <;> exact ⟨rfl, rfl, rfl⟩
  | false => cases w <;> exact ⟨rfl, rfl, rfl⟩

/-- Sending takes no time. -/
theorem run_sent (t : Int) (messages : List Text) :
    machine.runFrom (some t) (messages.map .sent) = some t ∧
      machine.labelsFrom ended (some t) (messages.map .sent) = [] ∧
      machine.labelsFrom reported (some t) (messages.map .sent) =
        List.replicate messages.length t := by
  induction messages with
  | nil => exact ⟨rfl, rfl, rfl⟩
  | cons m ms ih =>
    obtain ⟨h1, h2, h3⟩ := ih
    exact ⟨h1, h2, congrArg (t :: ·) h3⟩

end

/-- Without a location nothing is timed. -/
theorem run_idle {es : List Event} (h : ∀ location, .located location ∉ es) :
    machine.runFrom none es = none ∧ machine.labelsFrom ended none es = [] ∧
      machine.labelsFrom reported none es = [] := by
  induction es with
  | nil => exact ⟨rfl, rfl, rfl⟩
  | cons e es ih =>
    have ih := ih fun location hm => h location (List.mem_cons_of_mem _ hm)
    cases e with
    | located location => exact absurd List.mem_cons_self (h location)
    | _ => exact ih

/-- The sum of the delays in a log. -/
def delays : List Event → Int
  | [] => 0
  | .delay ms :: es => ms + delays es
  | _ :: es => delays es

theorem runFrom_delays {es : List Event} (hsi : .si ∉ es)
    (hloc : ∀ location, .located location ∉ es) (t : Int) :
    machine.runFrom (some t) es = some (t + delays es) := by
  induction es generalizing t with
  | nil => exact congrArg some (Int.add_zero t).symm
  | cons e es ih =>
    have ih := ih (fun hm => hsi (List.mem_cons_of_mem _ hm)) fun location hm =>
      hloc location (List.mem_cons_of_mem _ hm)
    cases e with
    | si => exact absurd List.mem_cons_self hsi
    | located location => exact absurd List.mem_cons_self (hloc location)
    | delay ms => exact (ih (t + ms)).trans (congrArg some (Int.add_assoc t ms _))
    | _ => exact ih t

/-- What a platform stop logs. -/
def stopEvents (location color : Int) (messages : List Text) : List Event :=
  [.located location, .delay 1000, .delay 600, .delay 600, .delay 600] ++ Car.getColorDelays ++
    [.colored color] ++ messages.map .sent ++ [.delay 2000]

theorem run_stop (w : Stopwatch) (location color : Int) (messages : List Text) :
    machine.runFrom w (stopEvents location color messages) = some 4860 ∧
      machine.labelsFrom ended w (stopEvents location color messages) = [] ∧
      machine.labelsFrom reported w (stopEvents location color messages) =
        List.replicate (1 + messages.length) 2860 := by
  obtain ⟨h1, h2, h3⟩ := run_sent 2860 messages
  have hpre : machine.runFrom w ([.located location, .delay 1000, .delay 600, .delay 600,
      .delay 600] ++ Car.getColorDelays ++ [.colored color]) = some 2860 := rfl
  have hended : machine.labelsFrom ended w ([.located location, .delay 1000, .delay 600,
      .delay 600, .delay 600] ++ Car.getColorDelays ++ [.colored color]) = [] := rfl
  have hreported : machine.labelsFrom reported w ([.located location, .delay 1000, .delay 600,
      .delay 600, .delay 600] ++ Car.getColorDelays ++ [.colored color]) = [2860] := rfl
  unfold stopEvents
  refine ⟨?_, ?_, ?_⟩
  · rw [Machine.runFrom_append, Machine.runFrom_append, hpre, h1]
    rfl
  · rw [Machine.labelsFrom_append, Machine.labelsFrom_append, hended, hpre, h2]
    rfl
  · rw [Machine.labelsFrom_append, Machine.labelsFrom_append, hreported, hpre, h3,
      Nat.add_comm, List.replicate_succ]
    exact List.append_nil _

/-- The log `es` leaves the stopwatch at `w`, behind `n` stops that kept to the timetable. -/
structure Log (es : List Event) (w : Stopwatch) (n : Nat) : Prop where
  watch : machine.run es = w
  ended : machine.labels ended es = List.replicate n 4860
  reported : ∀ t ∈ machine.labels reported es, t = 2860

section
variable {es : List Event} {w : Stopwatch} {n : Nat}

theorem Log.append (h : Log es w n) {es' : List Event} {m : Nat}
    (he : machine.labelsFrom Stopwatch.ended w es' = List.replicate m 4860)
    (hr : ∀ t ∈ machine.labelsFrom Stopwatch.reported w es', t = 2860) :
    Log (es ++ es') (machine.runFrom w es') (n + m) where
  watch := by rw [Machine.run_append, h.watch]
  ended := by rw [Machine.labels_append, h.watch, h.ended, he, List.replicate_append_replicate]
  reported := by
    rw [Machine.labels_append, h.watch]
    intro t ht
    rcases List.mem_append.1 ht with ht | ht
    · exact h.reported t ht
    · exact hr t ht

theorem Log.frame (h : Log es none n) (explosureTime : Int) (reset : Bool) (inp : Inputs)
    (status : Status) :
    Log (es ++ (Car.processEvents explosureTime reset inp ++ [.classified status])) none n := by
  obtain ⟨h1, h2, h3⟩ := run_frame none explosureTime reset inp status
  rw [← h1]
  exact h.append (m := 0) h2 (by rw [h3]; exact List.forall_mem_nil _)

theorem Log.frame_ending (h : Log es (some 4860) n) (explosureTime : Int) (reset : Bool)
    (inp : Inputs) (status : Status) : Log
      (es ++ (Car.processEvents explosureTime reset inp ++ [.classified status])) none
      (n + 1) := by
  obtain ⟨h1, h2, h3⟩ := run_frame (some 4860) explosureTime reset inp status
  rw [← h1]
  exact h.append (m := 1) h2 (by rw [h3]; exact List.forall_mem_nil _)

theorem Log.stop (h : Log es none n) (location color : Int) (messages : List Text) :
    Log (es ++ stopEvents location color messages) (some 4860) n := by
  obtain ⟨h1, h2, h3⟩ := run_stop none location color messages
  rw [← h1]
  refine h.append (m := 0) h2 ?_
  rw [h3]
  exact fun t ht => List.eq_of_mem_replicate ht

/-- Events outside a stop. -/
theorem Log.iterate (h : Log es none n) (prevTimeMs substractedExplosureTime : Int)
    (initStarting : Bool) :
    Log (es ++ [.iterate prevTimeMs substractedExplosureTime initStarting]) none n :=
  @Log.append es none n h [.iterate ..] 0 rfl (List.forall_mem_nil _)

theorem Log.delay (h : Log es none n) (ms : Int) : Log (es ++ [.delay ms]) none n :=
  @Log.append es none n h [.delay ms] 0 rfl (List.forall_mem_nil _)

end

end Stopwatch

namespace Car

/-! ## What a stop logs -/

section
variable (inp : Inputs) (c : Car)

theorem arrive_stop : (c.arrive inp).trace = c.trace ++
    ([.located (c.location + 1), .delay 1000, .delay 600, .delay 600, .delay 600] ++
      getColorDelays ++ [.colored (c.arrive inp).color]) := by
  simp only [arrive, readColor, emit, delay, servoWritePixel, motorBrake, List.append_assoc]
  rfl

theorem platformStop_stop (aim : ℚ) : (c.platformStop aim inp).trace = c.trace ++
    Stopwatch.stopEvents (c.location + 1) (c.arrive inp).color (c.arrive inp).messages := by
  have ht : (c.platformStop aim inp).trace = (c.arrive inp).report.trace ++ [.delay 2000] := rfl
  rw [ht, report_eq, arrive_stop, Stopwatch.stopEvents]
  simp only [List.append_assoc]

/-- What an iteration logs up to the switches. -/
theorem sensed_stop : ∃ explosureTime reset, (c.sensed inp).1.trace = c.trace ++
    [.iterate (c.getTime inp.millis).1 (c.beginLoop inp).1 (c.beginLoop inp).2.1] ++
    (processEvents explosureTime reset inp ++ [.classified (c.status inp)]) :=
  ⟨_, _, sense_trace inp (c.begun inp) c.bestRecord.explosureTime (c.beginLoop inp).1
    (c.beginLoop inp).2.1⟩

/-- What the switches log. -/
theorem trackingLoop_stop : ∃ es, (c.trackingLoop inp).trace = (c.sensed inp).1.trace ++ es ∧
    ((c.status inp ≠ .platform ∧ es = []) ∨ (c.status inp = .platform ∧ ∃ color messages,
      es = Stopwatch.stopEvents (c.location + 1) color messages)) := by
  have hloc : (c.sensed inp).1.location = c.location := (quiet_sensed inp c).location
  rw [trackingLoop_eq, sensed_status]
  cases c.status inp with
  | normal => exact ⟨[], (List.append_nil _).symm, .inl ⟨by decide, rfl⟩⟩
  | noTrack => exact ⟨[], (List.append_nil _).symm, .inl ⟨by decide, rfl⟩⟩
  | platform =>
    rw [← hloc]
    exact ⟨_, platformStop_stop inp { (c.sensed inp).1 with boardLed := true } _,
      .inr ⟨rfl, _, _, rfl⟩⟩

end

/-! ## Runs -/

/-- The watch at a state of control: it runs between a stop and the frame thrown away. -/
def watchAt : Control → Stopwatch
  | .discarding => some 4860
  | _ => none

/-- Every location but the one the car is still at is that of a stop that has ended. -/
structure Punctual (c : Car) (n : Nat) : Prop where
  log : Stopwatch.Log c.trace (watchAt c.control) n
  location : c.location = n + if c.control = .discarding then 1 else 0

theorem Punctual.trackingLoop {c : Car} {n : Nat} (h : Punctual c n) (hc : c.control = .tracking)
    (inp : Inputs) : Punctual (c.trackingLoop inp) n := by
  obtain ⟨explosureTime, reset, hs⟩ := sensed_stop inp c
  obtain ⟨es, ht, hes⟩ := trackingLoop_stop inp c
  have hctl := trackingLoop_control hc inp
  have hloc := trackingLoop_location inp c
  obtain ⟨hlog, hn⟩ := h
  rw [hc] at hlog hn
  have hsensed : Stopwatch.Log (c.sensed inp).1.trace none n := by
    rw [hs]
    exact (hlog.iterate _ _ _).frame _ _ _ _
  rcases hes with ⟨hne, rfl⟩ | ⟨heq, color, messages, rfl⟩
  · have hnd : (c.trackingLoop inp).control ≠ .discarding ∧
        watchAt (c.trackingLoop inp).control = none := by
      rw [hctl]
      cases hst : c.status inp with
      | platform => exact absurd hst hne
      | normal => exact ⟨by decide, rfl⟩
      | noTrack => exact ⟨by decide, rfl⟩
    refine ⟨?_, ?_⟩
    · rw [ht, List.append_nil, hnd.2]
      exact hsensed
    · rw [hloc, if_neg hne, if_neg hnd.1, hn]
      rfl
  · rw [heq] at hctl
    refine ⟨?_, ?_⟩
    · rw [ht, hctl]
      exact hsensed.stop _ _ _
    · rw [hloc, if_pos heq, hctl, hn]
      rfl

theorem Punctual.step {c : Car} {n : Nat} (h : Punctual c n) (hmode : c.control ≠ .btMode)
    (inp : Inputs) : ∃ m, Punctual (c.step inp) m := by
  have hl := step_location inp c
  cases hc : c.control with
  | btMode => exact absurd hc hmode
  | tracking =>
    rw [step_tracking hc]
    exact ⟨n, h.trackingLoop hc inp⟩
  | discarding =>
    obtain ⟨hlog, hn⟩ := h
    rw [hc] at hlog hn
    rw [if_neg (by simp [hc])] at hl
    have htrace := behind_trace (.inl hc) inp
    have hctl : (c.step inp).control = .leaving := by
      rw [step_discarding hc]
      rfl
    refine ⟨n + 1, ?_, ?_⟩
    · rw [htrace, hctl]
      exact hlog.frame_ending _ _ _ _
    · rw [hl, hctl, hn]
      simp
  | leaving =>
    obtain ⟨hlog, hn⟩ := h
    rw [hc] at hlog hn
    rw [if_neg (by simp [hc])] at hl
    have htrace := behind_trace (.inr hc) inp
    have hctl : (c.step inp).control ≠ .discarding ∧ watchAt (c.step inp).control = none := by
      rcases behind_control (.inr hc) inp with hctl | ⟨hctl, -⟩
      · rw [hctl]
        exact ⟨by decide, rfl⟩
      · rw [hctl]
        exact ⟨by decide, rfl⟩
    refine ⟨n, ?_, ?_⟩
    · rw [htrace, hctl.2]
      exact hlog.frame _ _ _ _
    · rw [hl, if_neg hctl.1, hn]
      simp
  | halted =>
    obtain ⟨hlog, hn⟩ := h
    rw [step_halted hc]
    rw [hc] at hlog hn
    have hctl : c.blink.control = .halted := hc
    refine ⟨n, ?_, ?_⟩
    · rw [hctl]
      exact hlog.delay 1000
    · rw [hctl]
      exact hn

theorem punctual_init (p : Prelude) (bestRecord : ExplosureRecord) :
    Punctual (trackingMachine p bestRecord).init 0 where
  log := by
    have hidle : ∀ location, .located location ∉ (trackingMachine p bestRecord).init.trace := by
      intro location
      rw [init_trace]
      simp [calibrationEvents, captureEvents, getColorDelays]
    obtain ⟨h1, h2, h3⟩ := Stopwatch.run_idle hidle
    exact ⟨h1, h2, by rw [Machine.labels]; exact h3 ▸ List.forall_mem_nil _⟩
  location := rfl

theorem punctual_run (p : Prelude) (bestRecord : ExplosureRecord) (is : List Inputs) :
    ∃ n, Punctual ((trackingMachine p bestRecord).run is) n := by
  induction is using List.reverseRecOn with
  | nil => exact ⟨0, punctual_init p bestRecord⟩
  | append_singleton is inp ih =>
    obtain ⟨n, h⟩ := ih
    rw [Machine.run_concat]
    exact h.step (exposed_run p bestRecord is).mode inp

/-- **The timetable of a platform stop.** In the trace of every run, the delays between the
announcement of a location and the next SI pulse add up to 4860 ms, those up to the colour and to
each message sent at the stop to 2860 ms; the stops that have ended are as many as the locations,
less the one the car is still at. -/
theorem stop_timetable (p : Prelude) (bestRecord : ExplosureRecord) (is : List Inputs) :
    let c := (trackingMachine p bestRecord).run is
    (∀ pre mid post location, c.trace = pre ++ .located location :: mid ++ .si :: post →
      .si ∉ mid → (∀ location, .located location ∉ mid) → Stopwatch.delays mid = 4860) ∧
    (∀ pre mid post location message,
      c.trace = pre ++ .located location :: mid ++ .sent message :: post →
      .si ∉ mid → (∀ location, .located location ∉ mid) → Stopwatch.delays mid = 2860) ∧
    ((Stopwatch.machine.labels Stopwatch.ended c.trace).length : Int) =
      c.location - if c.control = .discarding then 1 else 0 := by
  intro c
  obtain ⟨n, ⟨hw, hended, hreported⟩, hl⟩ := punctual_run p bestRecord is
  have hmid : ∀ pre mid location, .si ∉ mid → (∀ location, .located location ∉ mid) →
      Stopwatch.machine.run (pre ++ .located location :: mid) =
        some (Stopwatch.delays mid) := by
    intro pre mid location hsi hloc
    rw [Machine.run_append, Machine.runFrom_cons]
    exact (Stopwatch.runFrom_delays hsi hloc 0).trans (congrArg some (Int.zero_add _))
  refine ⟨fun pre mid post location heq hsi hloc => ?_,
    fun pre mid post location message heq hsi hloc => ?_, ?_⟩
  · have hrun := hmid pre mid location hsi hloc
    have hmem : Stopwatch.delays mid ∈ Stopwatch.machine.labels Stopwatch.ended c.trace := by
      rw [heq, Machine.labels_append, hrun]
      exact List.mem_append_right _ List.mem_cons_self
    exact List.eq_of_mem_replicate (hended ▸ hmem)
  · have hrun := hmid pre mid location hsi hloc
    refine hreported _ ?_
    show Stopwatch.delays mid ∈ Stopwatch.machine.labels Stopwatch.reported c.trace
    rw [heq, Machine.labels_append, hrun]
    exact List.mem_append_right _ List.mem_cons_self
  · have hlen := congrArg List.length hended
    rw [List.length_replicate] at hlen
    exact (congrArg Nat.cast hlen).trans (eq_sub_of_add_eq hl.symm)

end Car

end BuptCar
