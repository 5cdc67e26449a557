import BuptCar.Proof.Pilot
import BuptCar.Proof.Speed

/-!
# The motors in the tracking loop

What the motors do after any run: `Driven` is kept by every step (`Driven.step`). The motor-on pin
is sampled at the start of `autoTrack` only, so while the car leaves a platform its motors follow
the sample of the stop, not the pin.
-/

namespace BuptCar

namespace Chassis

/-- The duty of a power that `motorForward` limits. -/
theorem limitedDuty_le (v : ℚ) :
    (toUInt (clamp (min v (cMaximumPower : ℚ)) 0 65535) : Int) ≤ cMaximumPower := by
  have hle : toUInt (clamp (min v (cMaximumPower : ℚ)) 0 65535) ≤ 32000 := by
    apply toUInt_le
    rw [clamp_eq_max_min (by norm_num)]
    refine max_le (by norm_num) ((min_le_left _ _).trans ((min_le_right _ _).trans ?_))
    norm_num [cMaximumPower]
  unfold cMaximumPower at *
  omega

/-- Without an aim the motors idle, with one they run forwards. -/
theorem motorForward_cases (aim : ℚ) (speed : Option ℚ) (undef : Nat) {c : Chassis}
    (h : c.maxResolution = 65535) :
    (aim = 0 ∧ c.motorForward aim speed undef = c.drive (0, 0)) ∨
      (aim ≠ 0 ∧ ∃ p, (c.motorForward aim speed undef).left = (p, 0) ∧
        (c.motorForward aim speed undef).right = (p, 0) ∧
        ((c.motorForward aim speed undef).motorPID.isSome → (p : Int) ≤ cMaximumPower)) := by
  by_cases haim : aim = 0
  · refine .inl ⟨haim, ?_⟩
    rw [haim, motorForward_zero]
  · refine .inr ⟨haim, ?_⟩
    cases hpid : c.motorPID with
    | none =>
      have hfin := motorForward_finite haim speed undef c
      rw [hpid] at hfin
      refine ⟨undef, ?_, ?_, fun hs => absurd (hfin.1 hs).1 Bool.false_ne_true⟩
      · rw [motorForward, if_neg haim, hpid]
        rfl
      · rw [motorForward, if_neg haim, hpid]
        rfl
    | some pid =>
      cases speed with
      | none =>
        have hfin := motorForward_finite haim none undef c
        refine ⟨undef, ?_, ?_, fun hs => absurd (hfin.1 hs).2 Bool.false_ne_true⟩
        · rw [motorForward, if_neg haim, hpid]
          rfl
        · rw [motorForward, if_neg haim, hpid]
          rfl
      | some speed =>
        rw [motorForward_eq haim hpid h]
        exact ⟨_, rfl, rfl, fun _ => limitedDuty_le _⟩

end Chassis

namespace Car

theorem motorAimSpeed_eq_zero (inp : Inputs) : motorAimSpeed inp = 0 ↔ inp.motorOn = false := by
  unfold motorAimSpeed
  cases inp.motorOn <;> norm_num [aimSpeed]

/-- Labels a sample of the motor-on pin. -/
def enabled (c : Car) (inp : Inputs) : Option Bool :=
  if c.control = .tracking then some inp.motorOn else none

/-- The motors behind the samples `samples` of the motor-on pin. -/
structure Driven (c : Car) (samples : List Bool) : Prop where
  resolution : c.chassis.maxResolution = 65535
  sync : c.chassis.left = c.chassis.right
  halted : c.control = .halted → c.chassis.left = (65535, 65535)
  forward : c.control ≠ .halted → c.chassis.left.2 = 0
  bound : c.control ≠ .halted → c.chassis.motorPID.isSome →
    (c.chassis.left.1 : Int) ≤ cMaximumPower
  idle : c.control ≠ .halted → samples.getLast? ≠ some true → c.chassis.left = (0, 0)

/-- A step that ends with `motorForward`. -/
theorem driven_forward {d : Car} {ch : Chassis} {aim : ℚ} {speed : Option ℚ} {undef : Nat}
    {samples : List Bool} {on : Bool} (hres : ch.maxResolution = 65535)
    (hd : d.chassis = ch.motorForward aim speed undef) (hctl : d.control ≠ .halted)
    (haim : aim = 0 ↔ on = false) : Driven d (samples ++ [on]) := by
  have hkept := (Chassis.motorForward_maxResolution aim speed undef ch).trans hres
  rcases Chassis.motorForward_cases aim speed undef hres with ⟨h0, heq⟩ | ⟨h0, p, hl, hr, hp⟩
  · rw [heq] at hd
    exact ⟨by rw [hd, ← heq, hkept], by rw [hd]; rfl, fun h => absurd h hctl, by rw [hd]; simp,
      fun _ _ => by rw [hd, Chassis.drive_left]; decide, fun _ _ => by rw [hd]; rfl⟩
  · have hon : on = true := by simpa [haim] using h0
    rw [← hd] at hl hr hp
    refine ⟨by rw [hd, hkept], hl.trans hr.symm, fun h => absurd h hctl, fun _ => by rw [hl],
      fun _ hs => by rw [hl]; exact hp hs, fun _ hlast => absurd ?_ hlast⟩
    rw [List.getLast?_concat, hon]

/-- A step that leaves the motors alone and reads no pin. -/
theorem Driven.of_kept {c d : Car} {samples : List Bool} (h : Driven c samples)
    (hd : d.chassis = c.chassis) (hctl : d.control = .halted ↔ c.control = .halted) :
    Driven d samples where
  resolution := by rw [hd, h.resolution]
  sync := by rw [hd, h.sync]
  halted := fun hc => by rw [hd, h.halted (hctl.1 hc)]
  forward := fun hc => by rw [hd, h.forward (mt hctl.2 hc)]
  bound := fun hc hs => by
    rw [hd] at hs ⊢
    exact h.bound (mt hctl.2 hc) hs
  idle := fun hc hlast => by rw [hd, h.idle (mt hctl.2 hc) hlast]

/-- One call of `autoTrack`. -/
theorem Driven.trackingLoop {c : Car} {samples : List Bool} (h : Driven c samples)
    (hc : c.control = .tracking) (inp : Inputs) :
    Driven (c.trackingLoop inp) (samples ++ [inp.motorOn]) := by
  have hch := sensed_chassis inp c
  have hres : (c.sensed inp).1.chassis.maxResolution = 65535 := by rw [hch, h.resolution]
  have hctl := trackingLoop_control hc inp
  rw [trackingLoop_eq, sensed_status] at hctl ⊢
  cases hs : c.status inp with
  | normal =>
    rw [hs] at hctl
    refine driven_forward ?_ rfl (by rw [hctl]; decide)
      (motorAimSpeed_eq_zero inp)
    exact hres
  | platform =>
    rw [hs] at hctl
    have hthird : motorAimSpeed inp / 3 = 0 ↔ inp.motorOn = false := by
      rw [div_eq_zero_iff, motorAimSpeed_eq_zero]
      norm_num
    refine driven_forward ?_ rfl (by rw [hctl]; decide) hthird
    exact (congrArg Chassis.maxResolution (report_chassis _)).trans hres
  | noTrack =>
    rw [hs] at hctl
    obtain ⟨hl, hr, -⟩ := halt_chassis (c := { (c.sensed inp).1 with boardLed := false }) hres
    have hhalted : (react (motorAimSpeed inp) (c.sensed inp).2.1 .noTrack inp
        (c.sensed inp).1).control = .halted := hctl
    exact ⟨hres, hl.trans hr.symm, fun _ => hl, fun hn => absurd hhalted hn,
      fun hn => absurd hhalted hn, fun hn => absurd hhalted hn⟩

theorem Driven.step {c : Car} {samples : List Bool} (h : Driven c samples)
    (hmode : c.control ≠ .btMode) (inp : Inputs) :
    Driven (c.step inp) (samples ++ (c.enabled inp).toList) := by
  cases hc : c.control with
  | btMode => exact absurd hc hmode
  | tracking =>
    rw [step_tracking hc, enabled, if_pos hc]
    exact h.trackingLoop hc inp
  | discarding =>
    rw [step_discarding hc, enabled, hc]
    simpa using h.of_kept (d := c.discardFrame inp) rfl (by simp [discardFrame, hc])
  | leaving =>
    rw [step_leaving hc, enabled, hc]
    have hctl := awaitTrack_control hc inp
    simpa using h.of_kept (awaitTrack_chassis inp c) (by rw [hctl, hc]; split <;> simp)
  | halted =>
    rw [step_halted hc, enabled, hc]
    simpa using h.of_kept (d := c.blink) rfl Iff.rfl

theorem driven_setup {c : Car} (hch : c.chassis = Chassis.setup) (hc : c.control ≠ .halted) :
    Driven c [] where
  resolution := by rw [hch, Chassis.setup, Chassis.initMotor_maxResolution]
  sync := by rw [hch]; rfl
  halted := fun h => absurd h hc
  forward := fun _ => by rw [hch]; rfl
  bound := fun _ _ => by
    have hl : Chassis.setup.left = (0, 0) := rfl
    rw [hch, hl]
    decide
  idle := fun _ _ => by rw [hch]; rfl

theorem enterTracking_chassis {c : Car} (h : c.chassis = Chassis.setup)
    (bestRecord : ExplosureRecord) :
    { c with bestRecord := bestRecord }.enterTracking.chassis = Chassis.setup := h

theorem init_chassis (p : Prelude) (bestRecord : ExplosureRecord) :
    (trackingMachine p bestRecord).init.chassis = Chassis.setup :=
  enterTracking_chassis (calibrate_chassis p) bestRecord

theorem driven_run (p : Prelude) (bestRecord : ExplosureRecord) (is : List Inputs) :
    Driven ((trackingMachine p bestRecord).run is)
      ((trackingMachine p bestRecord).labels enabled is) := by
  induction is using List.reverseRecOn with
  | nil => exact driven_setup (init_chassis p bestRecord) nofun
  | append_singleton is inp ih =>
    rw [Machine.run_concat, Machine.labels_concat]
    exact ih.step (exposed_run p bestRecord is).mode inp

/-- **What the motors do in the tracking loop.** After every run both get the same duties. Where the
loop has stopped for good they are braked; elsewhere they never run backwards, get at most
`cMaximumPower` while the speed controller is finite, and stand still unless the motor-on pin was
high when `autoTrack` last sampled it: at the start of its last call, not during a platform stop. -/
theorem motors_run (p : Prelude) (bestRecord : ExplosureRecord) (is : List Inputs) :
    let c := (trackingMachine p bestRecord).run is
    c.chassis.left = c.chassis.right ∧
      (c.control = .halted → c.chassis.left = (65535, 65535)) ∧
      (c.control ≠ .halted → c.chassis.left.2 = 0 ∧
        (c.chassis.motorPID.isSome → (c.chassis.left.1 : Int) ≤ cMaximumPower) ∧
        (((trackingMachine p bestRecord).labels enabled is).getLast? ≠ some true →
          c.chassis.left = (0, 0))) := by
  intro c
  have h := driven_run p bestRecord is
  exact ⟨h.sync, h.halted, fun hc => ⟨h.forward hc, h.bound hc, h.idle hc⟩⟩

end Car

end BuptCar
