import BuptCar.Proof.Transport
import BuptCar.Proof.Wiring

/-!
# The colours of a run

The colours of a run are those of the readings at its platforms against the blank reading
(`colors_run`). Each of these readings went over the bus, by the light of the lamp
(`sensor_colors`); a sensor that no longer answers reads as black, so from then on every platform
is empty (`sensor_lost`).
-/

namespace BuptCar

open Call TwoWire

/-- The colour of a reading. -/
def colorOf (blankRGB : Rgb UInt16) (rawBuff : RawBuff) : Int :=
  (getRGB rawBuff blankRGB).getD COLOR_EMPTY

namespace Car

variable {c : Car}

/-- The colour of a visit is that of its reading. -/
theorem visit_eq (c : Car) (o : Oled) (inp : Inputs) :
    c.visit inp = (Wired.platformBuff (c, o) inp).map (colorOf c.blankRGB) := by
  unfold visit Wired.platformBuff
  by_cases hp : c.control = .tracking ∧ c.status inp = .platform
  · rw [if_pos hp, if_pos hp, Option.map_some, colorOf]
    obtain ⟨x, hx, -⟩ := getRGB_spec inp.rawBuff c.blankRGB
    rw [hx]
    rfl
  · rw [if_neg hp, if_neg hp]
    rfl

theorem step_colors (inp : Inputs) (c : Car) (o : Oled) : (c.step inp).colors =
    c.colors ++ (Wired.platformBuff (c, o) inp).toList.map (colorOf c.blankRGB) := by
  rw [step_visit, c.visit_eq o]
  cases Wired.platformBuff (c, o) inp <;> rfl

/-- Nothing is sent or read before the loops but the blank reading. -/
theorem quiet_task2 (p : Prelude) : Quiet (setup p.bestRecord) (task2 p) := by
  have hcalibrate := quiet_calibrate p
  rw [task2]
  generalize calibrate p = r at hcalibrate ⊢
  obtain ⟨c, cameraIsBlocked⟩ := r
  cases cameraIsBlocked with
  | false => exact hcalibrate.trans (quiet_enterTracking c.bestRecord c)
  | true => exact hcalibrate.trans ⟨rfl, rfl, rfl, rfl⟩

theorem task2_blankRGB (p : Prelude) : (task2 p).blankRGB = getColor p.blankBuff := by
  rw [← calibrate_blankRGB, task2]
  generalize calibrate p = r
  obtain ⟨c, cameraIsBlocked⟩ := r
  cases cameraIsBlocked with
  | false => rfl
  | true => rfl

/-- The readings are as many as the platforms. -/
theorem step_reads (inp : Inputs) (c : Car) (o : Oled) : (c.step inp).location =
    c.location + (Wired.platformBuff (c, o) inp).toList.length := by
  unfold Wired.platformBuff
  by_cases hp : c.control = .tracking ∧ c.status inp = .platform
  · rw [if_pos hp, step_tracking hp.1, trackingLoop_location, if_pos hp.2]
    rfl
  · rw [if_neg hp, (step_quiet hp).location]
    exact (Int.add_zero _).symm

end Car

namespace Wired

variable {font : Nat → BitVec 8} {bus : I2c} {d : Display} {p : Prelude}

/-- Colours and location behind a run, by its readings. -/
theorem colors_run (s : Car × Oled) (inps : List Inputs) :
    ((panelMachine font WIRE_MAX d p).runFrom s inps).1.colors = s.1.colors ++
      ((panelMachine font WIRE_MAX d p).labelsFrom platformBuff s inps).map
        (colorOf s.1.blankRGB) ∧
    ((panelMachine font WIRE_MAX d p).runFrom s inps).1.location = s.1.location +
      ((panelMachine font WIRE_MAX d p).labelsFrom platformBuff s inps).length := by
  induction inps generalizing s with
  | nil => exact ⟨(List.append_nil _).symm, (Int.add_zero _).symm⟩
  | cons inp inps ih =>
    obtain ⟨c, o⟩ := s
    obtain ⟨hcolors, hlocation⟩ := ih ((panelMachine font WIRE_MAX d p).step (c, o) inp)
    have hcar : ((panelMachine font WIRE_MAX d p).step (c, o) inp).1 = c.step inp := rfl
    rw [Machine.runFrom_cons, Machine.labelsFrom, hcolors, hlocation, hcar, c.step_blankRGB inp,
      c.step_colors inp o, c.step_reads inp o, List.map_append, List.append_assoc,
      List.length_append, Int.natCast_add, Int.add_assoc]
    exact ⟨rfl, rfl⟩

theorem Stepped.colors {s s' : Wired} {n : Nat} {is inps : List Inputs}
    (h : Stepped font bus d p n s is inps s') :
    s'.car.colors = s.car.colors ++
      (platformBuffs font d p s inps).map (colorOf s.car.blankRGB) ∧
    s'.car.location = s.car.location + (platformBuffs font d p s inps).length := by
  have hcar : s'.car = ((panelMachine font WIRE_MAX d p).runFrom (s.car, s.oled) inps).1 :=
    congrArg Prod.fst h.state
  rw [hcar]
  exact colors_run (s.car, s.oled) inps

/-- The reads behind a run from power on. -/
theorem Ran.reads_eq {is : List Inputs} {s₁ s : Wired} {r : Prelude × List Inputs}
    (h : Ran font bus d p is s₁ r s) :
    (reads s.wire.transfers : Int) = 12 + 6 * s.car.location := by
  obtain ⟨level, hsound⟩ := h.stepped.sound
  have hlocation := h.stepped.colors.2
  rw [h.car, (Car.quiet_task2 r.1).location] at hlocation
  rw [hsound.reads, hlocation, show (Car.setup r.1.bestRecord).location = 0 from rfl, Int.zero_add]
  rfl

/-- The blank reading is over before the first step, and the others follow it. -/
theorem Ran.readings {is : List Inputs} {s₁ s : Wired} {r : Prelude × List Inputs}
    (h : Ran font bus d p is s₁ r s) :
    ∃ blank logs, Readings [] [blank] s₁.wire.transfers ∧
      Readings s₁.wire.transfers logs s.wire.transfers ∧
      s.car.location = logs.length ∧ s.car.colors = logs.map fun log =>
        colorOf (getColor (bus.delivered restoreClk blank)) (bus.delivered restoreClk log) := by
  obtain ⟨hcolors, hlocation⟩ := h.stepped.colors
  obtain ⟨blank, hblank, hreading⟩ := h.blank
  obtain ⟨logs, hlogs, hreadings⟩ := h.stepped.readings
  rw [h.car, (Car.quiet_task2 r.1).location] at hlocation
  rw [h.car, (Car.quiet_task2 r.1).colors, Car.task2_blankRGB, hlogs, hblank] at hcolors
  refine ⟨blank, logs, hreading, hreadings, ?_, ?_⟩
  · rw [hlocation, hlogs, List.length_map]
    exact Int.zero_add _
  · rw [hcolors, List.map_map]
    rfl

/-- Colours and location behind a run from power on. -/
theorem Ran.colors {is : List Inputs} {s₁ s : Wired} {r : Prelude × List Inputs}
    (h : Ran font bus d p is s₁ r s) :
    ∃ blank logs, Readings [] (blank :: logs) s.wire.transfers ∧
      s.car.location = logs.length ∧ s.car.colors = logs.map fun log =>
        colorOf (getColor (bus.delivered restoreClk blank)) (bus.delivered restoreClk log) := by
  obtain ⟨blank, logs, hreading, hreadings, hcolors⟩ := h.readings
  exact ⟨blank, logs, hreading.append hreadings List.nil_prefix h.stepped.transfers, hcolors⟩

theorem Stepped.car_eq {s s' : Wired} {n : Nat} {is inps : List Inputs}
    (h : Stepped font bus d p n s is inps s') :
    s'.car = (task2Machine p).runFrom s.car inps := by
  have hcar : s'.car = ((panelMachine font WIRE_MAX d p).runFrom (s.car, s.oled) inps).1 :=
    congrArg Prod.fst h.state
  rw [hcar, panelMachine_car]

theorem Ran.car_eq {is : List Inputs} {s₁ s : Wired} {r : Prelude × List Inputs}
    (h : Ran font bus d p is s₁ r s) : s.car = (task2Machine r.1).run r.2 := by
  rw [h.stepped.car_eq, h.car]
  rfl

theorem Stepped.visits {s s' : Wired} {n : Nat} {is inps : List Inputs}
    (h : Stepped font bus d p n s is inps s') :
    s'.car.colors = s.car.colors ++ (task2Machine p).labelsFrom Car.visit s.car inps := by
  rw [h.car_eq]
  exact Car.colors_run rfl s.car inps

/-- The colours are those of the visits, on the inputs the sensor's bytes have been put into. -/
theorem Ran.visits {is : List Inputs} {s₁ s : Wired} {r : Prelude × List Inputs}
    (h : Ran font bus d p is s₁ r s) :
    s.car.colors = (task2Machine r.1).labels Car.visit r.2 := by
  rw [h.stepped.visits, h.car, (Car.quiet_task2 r.1).colors]
  rfl

/-- What does not answer reads as black. -/
theorem delivered_lost {lost : List Transfer → Prop}
    (hlost : ∀ log t, lost log → lost (log ++ [t]) ∧ bus.bytes (log ++ [t]) = [])
    {start log : List Transfer} (hpre : start <+: log) (h : lost start) :
    bus.delivered restoreClk log = fun _ => 0 := by
  have happend : ∀ ts, lost (start ++ ts) := by
    intro ts
    induction ts using List.reverseRecOn with
    | nil => rwa [List.append_nil]
    | append_singleton ts t ih =>
      rw [← List.append_assoc]
      exact (hlost _ t ih).1
  obtain ⟨ts, rfl⟩ := hpre
  funext i
  unfold I2c.delivered
  rw [← List.append_assoc, List.append_assoc start, (hlost _ _ (happend _)).2]
  rfl

theorem colorOf_black (blankRGB : Rgb UInt16) : colorOf blankRGB (fun _ => 0) = COLOR_EMPTY := by
  have hzero : ∀ blank : UInt16, relativeVal 0 blank = 0 := by
    intro blank
    rw [relativeVal_eq]
    simp
  have hblack : getColor (fun _ => 0) = ⟨0, 0, 0⟩ := rfl
  unfold colorOf getRGB
  simp only [hblack, hzero]
  rfl

end Wired

/-- A sensor that no longer answers: once it is lost, which the traffic on the bus does not undo,
every platform is empty. -/
theorem sensor_lost {bus : I2c} {lost : List Transfer → Prop}
    (hlost : ∀ log t, lost log → lost (log ++ [t]) ∧ bus.bytes (log ++ [t]) = [])
    (font : Nat → BitVec 8) (frequency : Nat) (d : Display) (p : Prelude) (is js : List Inputs) :
    (Wired.run font bus p is).Returns (Wired.boot frequency d p) fun r s =>
      lost s.wire.transfers → (Wired.steps font bus js).Returns s fun inps s' =>
        ∃ k : Nat, s'.car.location = s.car.location + k ∧
          (task2Machine r.1).labelsFrom Car.visit s.car inps = List.replicate k COLOR_EMPTY ∧
          s'.car.colors = s.car.colors ++ List.replicate k COLOR_EMPTY := by
  refine (Wired.run_sound font bus frequency d p is).mono ?_
  rintro r s ⟨s₁, h⟩ hs
  obtain ⟨level, hsound⟩ := h.stepped.sound
  refine (Wired.steps_returns hsound r.1 js).mono fun inps s' h' => ?_
  obtain ⟨hcolors, hlocation⟩ := h'.colors
  obtain ⟨logs, hlogs, hreadings⟩ := h'.readings
  have hblack : (Wired.platformBuffs font d r.1 s inps).map (colorOf s.car.blankRGB) =
      List.replicate (Wired.platformBuffs font d r.1 s inps).length COLOR_EMPTY := by
    rw [hlogs, List.eq_replicate_iff, List.length_map]
    refine ⟨rfl, fun x hx => ?_⟩
    obtain ⟨rawBuff, hraw, rfl⟩ := List.mem_map.1 hx
    obtain ⟨log, hlog, rfl⟩ := List.mem_map.1 hraw
    rw [Wired.delivered_lost hlost (hreadings.bounds log hlog).1 hs, Wired.colorOf_black]
  rw [hblack] at hcolors
  refine ⟨_, hlocation, ?_, hcolors⟩
  rw [h'.visits, List.append_cancel_left_eq] at hcolors
  exact hcolors

namespace Wired

variable {font : Nat → BitVec 8} {bus : I2c} {d : Display} {p : Prelude} {is : List Inputs}
  {s₁ s : Wired} {r : Prelude × List Inputs}

/-- A sensor that sees black up to the blank reading, then red, and is lost behind `n` reads. -/
def redSensor (n : Nat) : I2c where
  err := fun _ => .ok
  bytes := fun log =>
    match log.getLast? with
    | some (.writeRead _ [register] _ _) =>
      if reads log ≤ 12 then [0]
      else if reads log ≤ n then [if register = 1 then 200 else 0]
      else []
    | _ => []

/-- The reads up to the answer to the read of register `i`. -/
theorem reads_request (log : List Transfer) (i : Fin 6) :
    reads (log ++ (I2c.reading restoreClk ((List.finRange 6).take i) ++
      [I2c.readRequest restoreClk i])) = reads log + (i + 1) := by
  have hreading : ∀ i : Fin 6, reads (I2c.reading restoreClk ((List.finRange 6).take i) ++
      [I2c.readRequest restoreClk i]) = i + 1 := by decide
  rw [← hreading i]
  exact List.countP_append

theorem redSensor_request (n : Nat) (log : List Transfer) (i : Fin 6) :
    (redSensor n).bytes (log ++ (I2c.reading restoreClk ((List.finRange 6).take i) ++
      [I2c.readRequest restoreClk i])) =
        if reads log + (i + 1) ≤ 12 then [0]
        else if reads log + (i + 1) ≤ n then
          [if colorBufferAddr + BitVec.ofNat 8 i = 1 then 200 else 0]
        else [] := by
  rw [← reads_request]
  unfold redSensor
  dsimp only
  rw [← List.append_assoc, List.getLast?_concat]
  rfl

theorem redSensor_black (n : Nat) {log : List Transfer} (h : reads log + 6 ≤ 12) :
    (redSensor n).delivered restoreClk log = fun _ => 0 := by
  funext i
  have hi := i.isLt
  unfold I2c.delivered
  rw [redSensor_request, if_pos (by omega)]
  rfl

theorem redSensor_red {n : Nat} {log : List Transfer} (h : 12 ≤ reads log)
    (hn : reads log + 6 ≤ n) : (redSensor n).delivered restoreClk log = redBuff := by
  funext i
  have hi := i.isLt
  unfold I2c.delivered
  rw [redSensor_request, if_neg (by omega), if_pos (by omega)]
  revert i
  decide

theorem redSensor_lost (n : Nat) (log : List Transfer) (t : Transfer)
    (h : 12 ≤ n ∧ n ≤ reads log) :
    (12 ≤ n ∧ n ≤ reads (log ++ [t])) ∧ (redSensor n).bytes (log ++ [t]) = [] := by
  obtain ⟨hn, hlog⟩ := h
  have hreads : reads (log ++ [t]) = reads log + reads [t] := List.countP_append
  refine ⟨⟨hn, by omega⟩, ?_⟩
  unfold redSensor
  dsimp only
  rw [List.getLast?_concat]
  split
  · rename_i heq
    obtain rfl := Option.some.inj heq
    have hread : ∀ address register size frequency,
        reads [.writeRead address [register] size frequency] = 1 := fun _ _ _ _ => rfl
    rw [hread] at hreads
    rw [if_neg (by omega), if_neg (by omega)]
  · rfl

theorem Ran.red {n : Nat} (h : Ran font (redSensor n) d p is s₁ r s)
    (hn : reads s.wire.transfers ≤ n) : s.car.colors = List.replicate s.car.location.toNat 0 := by
  obtain ⟨blank, logs, hreading, hreadings, hlocation, hcolors⟩ := h.readings
  have hread : ∀ log, reads (log ++ I2c.reading restoreClk (List.finRange 6)) = reads log + 6 :=
    fun _ => List.countP_append
  have hblack : (redSensor n).delivered restoreClk blank = fun _ => 0 := by
    have hle : reads (blank ++ I2c.reading restoreClk (List.finRange 6)) ≤
        reads s₁.wire.transfers := (hreading.bounds blank List.mem_cons_self).2.sublist.countP_le
    rw [h.blankReads, hread] at hle
    exact redSensor_black n hle
  rw [hlocation, Int.toNat_natCast, hcolors, hblack]
  refine List.eq_replicate_iff.2 ⟨List.length_map _, fun x hx => ?_⟩
  obtain ⟨log, hlog, rfl⟩ := List.mem_map.1 hx
  obtain ⟨hbefore, hafter⟩ := hreadings.bounds log hlog
  have hfirst : reads s₁.wire.transfers ≤ reads log := hbefore.sublist.countP_le
  have hlast : reads (log ++ I2c.reading restoreClk (List.finRange 6)) ≤ reads s.wire.transfers :=
    hafter.sublist.countP_le
  rw [h.blankReads] at hfirst
  rw [hread] at hlast
  rw [redSensor_red hfirst (hlast.trans hn)]
  decide +kernel

theorem SensedAs.frames {inps : List Inputs} (h : List.Forall₂ SensedAs is inps) :
    inps.map Inputs.frame = is.map Inputs.frame := by
  induction h with
  | nil => rfl
  | cons hinp _ ih => rw [List.map_cons, List.map_cons, ih, hinp]

/-- Behind a start over a line the car is in the tracking loop, led by the frames. -/
theorem Ran.tracking {s' : Wired} {n : Nat} {js inps : List Inputs}
    (h : Ran font bus d Car.linePrelude is s₁ r s) (h' : Stepped font bus d r.1 n s js inps s') :
    s'.car.pilot = Pilot.machine.run (is.map Inputs.frame ++ js.map Inputs.frame) := by
  have hcar : s'.car = (task2Machine r.1).run (r.2 ++ inps) := by
    rw [Machine.run_append, ← h.car_eq, h'.car_eq]
  have hgiven := h.given
  rw [task2_of_not_blocked (by rw [hgiven]; exact Car.line_unblocked _)] at hcar
  rw [hcar, pilot_run, List.map_append, SensedAs.frames h.stepped.inputs, SensedAs.frames h'.inputs]

/-- Four platforms, by the light of which the sensor answers. -/
theorem Ran.circle
    (h : Ran font (redSensor 36) d Car.linePrelude ((circleFrames 100 4000).map seeing) s₁ r s) :
    s.car.location = 4 ∧ s.car.colors = [0, 0, 0, 0] ∧ reads s.wire.transfers = 36 := by
  have hlocation : s.car.location = 4 := by
    show s.car.pilot.location = 4
    obtain ⟨level, hsound⟩ := h.stepped.sound
    rw [h.tracking (.refl hsound r.1)]
    decide +kernel
  have hreads := h.reads_eq
  refine ⟨hlocation, ?_, by omega⟩
  rw [h.red (by omega), hlocation]
  rfl

end Wired

/-- Four red platforms behind a start over a line, a sensor that is lost then, and one more. -/
theorem sensor_lost_circle :
    (Wired.run (fun _ => 0) (Wired.redSensor 36) Car.linePrelude
        ((circleFrames 100 4000).map seeing)).Returns
      (Wired.boot 100000 (Display.construct 128 32 fun _ => 0) Car.linePrelude) fun _ s =>
      s.car.colors = [0, 0, 0, 0] ∧
        (Wired.steps (fun _ => 0) (Wired.redSensor 36) [seeing (platformFrame 100 4000)]).Returns s
          fun _ s' => s'.car.colors = [0, 0, 0, 0, COLOR_EMPTY] := by
  refine ((sensor_lost (Wired.redSensor_lost 36) (fun _ => 0) 100000 _ Car.linePrelude
    ((circleFrames 100 4000).map seeing) [seeing (platformFrame 100 4000)]).and
    (Wired.run_sound (fun _ => 0) (Wired.redSensor 36) 100000 _ Car.linePrelude
      ((circleFrames 100 4000).map seeing))).mono ?_
  rintro r s ⟨hlost, s₁, h⟩
  obtain ⟨hlocation, hcolors, hreads⟩ := h.circle
  obtain ⟨level, hsound⟩ := h.stepped.sound
  refine ⟨hcolors, ((hlost ⟨by decide, hreads.ge⟩).and
    (Wired.steps_returns hsound r.1 [seeing (platformFrame 100 4000)])).mono ?_⟩
  rintro inps s' ⟨⟨k, hk, -, hempty⟩, h'⟩
  have hfive : s'.car.location = 5 := by
    show s'.car.pilot.location = 5
    rw [h.tracking h']
    decide +kernel
  obtain rfl : k = 1 := by omega
  rw [hempty, hcolors]
  rfl

end BuptCar
