import BuptCar.Proof.Commands

/-!
# The motor bridges and the speed controller

`Bridge c`: both motors get the same duties, and these are one side driven, or both at the top
(brake). It is kept by every operation on the motors (`Bridge.call`), so it holds along every
sequence of calls, and a `motorForward` leaves the back duty 0 and the front duty within
`cMaximumPower` (`forward_front`).

The sign law (`forward_le`, `le_forward`): the output of `motorPID` is
`(Kp + Ki + Kd) e + Kd (I - e') + (Ki - Kd) I` for the error `e`, the integral `I` and the previous
error `e'`. With errors of one sign, `I - e'`, the sum of the errors before the previous one, has
that sign too (`Pid.SameSign`), and the gains satisfy `Kd ≤ Ki`.
-/

namespace BuptCar

/-! ## The sign of a PID output -/

namespace Pid

/-- The errors so far, multiplied by `σ`, were not negative. -/
structure SameSign (σ : ℚ) (p : Pid) : Prop where
  previous : 0 ≤ σ * p.previousError
  earlier : 0 ≤ σ * (p.I - p.previousError)

theorem sameSign_new (σ kp ki kd : ℚ) : SameSign σ (new kp ki kd) := by
  constructor <;> simp [new]

theorem SameSign.update {σ : ℚ} {p : Pid} (h : SameSign σ p) {e : ℚ} (he : 0 ≤ σ * e) :
    SameSign σ (p.update e) := by
  obtain ⟨h1, h2⟩ := h
  refine ⟨he, ?_⟩
  have hI : (p.update e).I - (p.update e).previousError =
      (p.I - p.previousError) + p.previousError := by
    rw [update_I, update_previousError]
    ring
  rw [hI, mul_add]
  exact add_nonneg h2 h1

/-- Errors of one sign give outputs of that sign, where the integral gain dominates the
derivative's. -/
theorem SameSign.output {σ : ℚ} {p : Pid} (h : SameSign σ p) (hp : 0 ≤ p.Kp) (hd : 0 ≤ p.Kd)
    (hid : p.Kd ≤ p.Ki) {e : ℚ} (he : 0 ≤ σ * e) : 0 ≤ σ * (p.update e).pidValue := by
  obtain ⟨h1, h2⟩ := h
  have hI : 0 ≤ σ * p.I := by linarith
  -- the derivative's `-Kd e'` is taken out of the integral, so that every summand has the sign
  have hsplit : σ * (p.update e).pidValue = (p.Kp + p.Ki + p.Kd) * (σ * e) +
      p.Kd * (σ * (p.I - p.previousError)) + (p.Ki - p.Kd) * (σ * p.I) := by
    rw [update_pidValue]
    ring
  rw [hsplit]
  have t1 : 0 ≤ (p.Kp + p.Ki + p.Kd) * (σ * e) := mul_nonneg (by linarith) he
  have t2 : 0 ≤ p.Kd * (σ * (p.I - p.previousError)) := mul_nonneg hd h2
  have t3 : 0 ≤ (p.Ki - p.Kd) * (σ * p.I) := mul_nonneg (by linarith) hI
  linarith

end Pid

namespace Chassis

/-! ## Calls on the motors -/

/-- A call on the motors; `speed` is what `getSpeed` measures during the call. -/
inductive Call
  | motorForward (aimSpeed speed : ℚ)
  | parseCommands (command : Int)
  | motorIdle
  | motorBrake

def call (c : Chassis) : Call → Chassis
  | .motorForward aimSpeed speed => c.motorForward aimSpeed (some speed) 0
  | .parseCommands command => c.parseCommands command
  | .motorIdle => c.motorIdle
  | .motorBrake => c.motorBrake

/-- Calls in any order, after `initServo` and `initMotor`. -/
def callMachine : Machine Chassis Call := ⟨setup, call⟩

/-- One side driven, or both at the top. -/
def DutiesOk (d : Nat × Nat) : Prop :=
  (∃ p, p ≤ 65535 ∧ (d = (p, 0) ∨ d = (0, p))) ∨ d = (65535, 65535)

theorem dutiesOk_front {p : Nat} (h : p ≤ 65535) : DutiesOk (p, 0) := .inl ⟨p, h, .inl rfl⟩

theorem dutiesOk_powerPair (command : Int) (boost : Bool) : DutiesOk (powerPair command boost) := by
  unfold powerPair
  split
  · exact .inl ⟨_, by cases boost <;> decide, .inr rfl⟩
  · split
    · exact .inr rfl
    · split
      · exact dutiesOk_front (by cases boost <;> decide)
      · exact dutiesOk_front (Nat.zero_le _)

/-- The invariant of the motors. -/
structure Bridge (c : Chassis) : Prop where
  sync : c.left = c.right
  duties : DutiesOk c.left
  resolution : c.maxResolution = 65535
  power : c.currentPower = cDefaultPower
  finite : ∃ pid, c.motorPID = some pid

theorem Bridge.drive {c : Chassis} (h : Bridge c) {duties : Nat × Nat} (hd : DutiesOk duties) :
    Bridge (c.drive duties) :=
  ⟨rfl, hd, h.resolution, h.power, h.finite⟩

theorem bridge_setup : Bridge setup where
  sync := rfl
  duties := dutiesOk_front (Nat.zero_le _)
  resolution := initMotor_maxResolution _
  power := rfl
  finite := ⟨_, rfl⟩

theorem clamp_cDefaultPower : clamp cDefaultPower 0 cMaximumPower = cDefaultPower := by decide

/-- The forward duty for the PID output `u`. -/
def forwardDuty (u : ℚ) : Nat :=
  toUInt (clamp (min ((cDefaultPower : ℚ) + u) (cMaximumPower : ℚ)) 0 65535)

theorem forwardDuty_le (u : ℚ) : (forwardDuty u : Int) ≤ cMaximumPower := by
  have h : forwardDuty u ≤ 32000 := by
    apply toUInt_le
    rw [clamp_eq_max_min (by norm_num)]
    refine max_le (by norm_num) ((min_le_left _ _).trans ((min_le_right _ _).trans ?_))
    norm_num [cMaximumPower]
  unfold cMaximumPower
  omega

theorem forwardDuty_le_default {u : ℚ} (h : u ≤ 0) : (forwardDuty u : Int) ≤ cDefaultPower := by
  have h : forwardDuty u ≤ 24000 := by
    apply toUInt_le
    rw [clamp_eq_max_min (by norm_num)]
    refine max_le (by norm_num) ((min_le_left _ _).trans ((min_le_left _ _).trans ?_))
    norm_num [cDefaultPower]
    exact h
  unfold cDefaultPower
  omega

theorem default_le_forwardDuty {u : ℚ} (h : 0 ≤ u) : cDefaultPower ≤ (forwardDuty u : Int) := by
  have h : 24000 ≤ forwardDuty u := by
    apply le_toUInt
    rw [clamp_eq_max_min (by norm_num)]
    refine le_max_of_le_right (le_min (le_min ?_ ?_) (by norm_num))
    · norm_num [cDefaultPower]
      exact h
    · norm_num [cMaximumPower]
  unfold cDefaultPower
  omega

theorem Bridge.motorForward_eq {c : Chassis} (h : Bridge c) {pid : Pid}
    (hpid : c.motorPID = some pid) {aim speed : ℚ} (haim : aim ≠ 0) (undef : Nat) :
    c.motorForward aim (some speed) undef =
      { c with motorPID := some (pid.update (aim - speed)) }.drive
        (forwardDuty (pid.update (aim - speed)).pidValue, 0) := by
  rw [Chassis.motorForward_eq haim hpid h.resolution]
  simp only [h.power, clamp_cDefaultPower]
  rfl

theorem Bridge.call {c : Chassis} (h : Bridge c) (a : Call) : Bridge (c.call a) := by
  cases a with
  | motorForward aim speed =>
    obtain ⟨pid, hpid⟩ := h.finite
    show Bridge (c.motorForward aim (some speed) 0)
    by_cases haim : aim = 0
    · rw [haim, motorForward_zero]
      exact h.drive (dutiesOk_front (Nat.zero_le _))
    · rw [h.motorForward_eq hpid haim]
      have hle : forwardDuty (pid.update (aim - speed)).pidValue ≤ 65535 := by
        have := forwardDuty_le (pid.update (aim - speed)).pidValue
        unfold cMaximumPower at this
        omega
      exact ⟨rfl, dutiesOk_front hle, h.resolution, h.power, ⟨_, rfl⟩⟩
  | parseCommands command =>
    show Bridge (c.parseCommands command)
    rcases command_kinds command with hk | ⟨h4, h9⟩ | hk | hk
    · rw [parseCommands_boost hk]
      exact ⟨h.sync, h.duties, h.resolution, h.power, h.finite⟩
    · rw [parseCommands_power h4 h9 h.resolution]
      exact h.drive (dutiesOk_powerPair command c.boost)
    · rw [parseCommands_turning hk]
      have hs := sameDrive_servoWriteAngle (steeringAngle command) c
      exact ⟨hs.left.trans (h.sync.trans hs.right.symm), hs.left ▸ h.duties, h.resolution, h.power,
        h.finite⟩
    · rw [parseCommands_other hk]
      exact h
  | motorIdle => exact h.drive (dutiesOk_front (Nat.zero_le _))
  | motorBrake =>
    show Bridge c.motorBrake
    rw [motorBrake_eq h.resolution]
    exact h.drive (.inr rfl)

theorem bridge_run (calls : List Call) : Bridge (callMachine.run calls) :=
  Machine.run_invariant (M := callMachine) bridge_setup (fun _ a h => h.call a) calls

/-- A completed `motorForward` leaves the back duty 0 and the front duty within the maximum. -/
theorem Bridge.forward_front {c : Chassis} (h : Bridge c) (aim speed : ℚ) :
    (c.call (.motorForward aim speed)).left.2 = 0 ∧
      ((c.call (.motorForward aim speed)).left.1 : Int) ≤ cMaximumPower := by
  obtain ⟨pid, hpid⟩ := h.finite
  show (c.motorForward aim (some speed) 0).left.2 = 0 ∧
    ((c.motorForward aim (some speed) 0).left.1 : Int) ≤ cMaximumPower
  by_cases haim : aim = 0
  · rw [haim, motorForward_zero]
    exact ⟨rfl, show ((0 : Nat) : Int) ≤ cMaximumPower by decide⟩
  · rw [h.motorForward_eq hpid haim]
    exact ⟨rfl, forwardDuty_le _⟩

/-- **The bridges are never driven apart**: after any calls both motors have the same duties, of
the allowed shapes; after a `motorForward` they drive forwards within `cMaximumPower`. -/
theorem bridge_invariant (calls : List Call) :
    (callMachine.run calls).left = (callMachine.run calls).right ∧
      DutiesOk (callMachine.run calls).left ∧
      ∀ aim speed, (callMachine.run (calls ++ [.motorForward aim speed])).left.2 = 0 ∧
        ((callMachine.run (calls ++ [.motorForward aim speed])).left.1 : Int) ≤ cMaximumPower := by
  have h := bridge_run calls
  refine ⟨h.sync, h.duties, fun aim speed => ?_⟩
  rw [Machine.run_concat]
  exact h.forward_front aim speed

/-! ## The sign law -/

/-- The measured speed was at least the aim, where a speed was measured. -/
def Call.Overspeed : Call → Prop
  | .motorForward aimSpeed speed => aimSpeed ≠ 0 → aimSpeed ≤ speed
  | _ => True

/-- The measured speed was at most the aim, where a speed was measured. -/
def Call.Underspeed : Call → Prop
  | .motorForward aimSpeed speed => aimSpeed ≠ 0 → speed ≤ aimSpeed
  | _ => True

/-- The error of the call has the sign `σ`, where one is passed to `motorPID`. -/
def Call.Signed (σ : ℚ) : Call → Prop
  | .motorForward aimSpeed speed => aimSpeed ≠ 0 → 0 ≤ σ * (aimSpeed - speed)
  | _ => True

theorem Call.Overspeed.signed {a : Call} (h : a.Overspeed) : a.Signed (-1) := by
  cases a with
  | motorForward aim speed => exact fun haim => by have := h haim; linarith
  | _ => trivial

theorem Call.Underspeed.signed {a : Call} (h : a.Underspeed) : a.Signed 1 := by
  cases a with
  | motorForward aim speed => exact fun haim => by have := h haim; linarith
  | _ => trivial

/-- The invariant of `motorPID` under errors of sign `σ`. -/
structure Signed (σ : ℚ) (c : Chassis) : Prop where
  bridge : Bridge c
  pid : ∃ pid, c.motorPID = some pid ∧ pid.SameSign σ ∧
    pid.Kp = speedKp ∧ pid.Ki = speedKi ∧ pid.Kd = speedKd

theorem signed_setup (σ : ℚ) : Signed σ setup :=
  ⟨bridge_setup, _, rfl, Pid.sameSign_new σ _ _ _, rfl, rfl, rfl⟩

theorem parseCommands_motorPID {command : Int} {c : Chassis} (h : c.maxResolution = 65535) :
    (c.parseCommands command).motorPID = c.motorPID := by
  rcases command_kinds command with hk | ⟨h4, h9⟩ | hk | hk
  · rw [parseCommands_boost hk]
  · rw [parseCommands_power h4 h9 h, drive_motorPID]
  · rw [parseCommands_turning hk]
  · rw [parseCommands_other hk]

theorem Signed.call {σ : ℚ} {c : Chassis} (h : Signed σ c) {a : Call} (ha : a.Signed σ) :
    Signed σ (c.call a) := by
  refine ⟨h.bridge.call a, ?_⟩
  obtain ⟨pid, hpid, hs, hg⟩ := h.pid
  cases a with
  | motorForward aim speed =>
    show ∃ q, (c.motorForward aim (some speed) 0).motorPID = some q ∧ _
    by_cases haim : aim = 0
    · rw [haim, motorForward_zero]
      exact ⟨pid, hpid, hs, hg⟩
    · rw [h.bridge.motorForward_eq hpid haim]
      exact ⟨_, rfl, hs.update (ha haim), hg⟩
  | parseCommands command =>
    exact ⟨pid, (parseCommands_motorPID h.bridge.resolution).trans hpid, hs, hg⟩
  | motorIdle => exact ⟨pid, hpid, hs, hg⟩
  | motorBrake => exact ⟨pid, hpid, hs, hg⟩

/-- Under errors of sign `σ` so far, the next PID output has that sign. -/
theorem Signed.forward {σ : ℚ} {c : Chassis} (h : Signed σ c) {aim speed : ℚ} (haim : aim ≠ 0)
    (ha : 0 ≤ σ * (aim - speed)) :
    ∃ u, 0 ≤ σ * u ∧ (c.call (.motorForward aim speed)).left.1 = forwardDuty u := by
  obtain ⟨pid, hpid, hs, hp, hi, hd⟩ := h.pid
  refine ⟨(pid.update (aim - speed)).pidValue, hs.output ?_ ?_ ?_ ha, ?_⟩
  · rw [hp]; norm_num [speedKp]
  · rw [hd]; norm_num [speedKd]
  · rw [hd, hi]; norm_num [speedKd, speedKi]
  · show (c.motorForward aim (some speed) 0).left.1 = _
    rw [h.bridge.motorForward_eq hpid haim]
    rfl

theorem signed_run (σ : ℚ) {calls : List Call} (h : ∀ a ∈ calls, a.Signed σ) :
    Signed σ (callMachine.run calls) :=
  Machine.runFrom_invariant_mem (M := callMachine) (signed_setup σ)
    fun _ a ha hc => hc.call (h a ha)

/-- **The sign law of the speed controller**: a car that was never too slow is driven with at most
the default power, one that was never too fast with at least it. -/
theorem speed_sign_law (calls : List Call) {aim speed : ℚ} (haim : aim ≠ 0) :
    ((∀ a ∈ calls ++ [.motorForward aim speed], a.Overspeed) →
      ((callMachine.run (calls ++ [.motorForward aim speed])).left.1 : Int) ≤ cDefaultPower) ∧
    ((∀ a ∈ calls ++ [.motorForward aim speed], a.Underspeed) →
      cDefaultPower ≤ ((callMachine.run (calls ++ [.motorForward aim speed])).left.1 : Int)) ∧
    (callMachine.run (calls ++ [.motorForward aim speed])).right =
      (callMachine.run (calls ++ [.motorForward aim speed])).left ∧
    (callMachine.run (calls ++ [.motorForward aim speed])).currentPower = cDefaultPower := by
  have hb := bridge_run (calls ++ [.motorForward aim speed])
  refine ⟨fun h => ?_, fun h => ?_, hb.sync.symm, hb.power⟩
  · have hs := signed_run (-1) fun a ha => (h a (List.mem_append_left _ ha)).signed
    have hlast : aim ≤ speed := h (.motorForward aim speed) (by simp) haim
    obtain ⟨u, hu, hd⟩ := hs.forward haim (show 0 ≤ -1 * (aim - speed) by linarith)
    rw [Machine.run_concat]
    show ((Chassis.call _ _).left.1 : Int) ≤ _
    rw [hd]
    exact forwardDuty_le_default (by linarith)
  · have hs := signed_run 1 fun a ha => (h a (List.mem_append_left _ ha)).signed
    have hlast : speed ≤ aim := h (.motorForward aim speed) (by simp) haim
    obtain ⟨u, hu, hd⟩ := hs.forward haim (show 0 ≤ 1 * (aim - speed) by linarith)
    rw [Machine.run_concat]
    show _ ≤ ((Chassis.call _ _).left.1 : Int)
    rw [hd]
    exact default_le_forwardDuty (by linarith)

/-- Too fast, an idle call, then less too fast: the derivative term alone is positive. -/
theorem speed_sign_law_slowing :
    ((callMachine.run [.motorForward (1 / 2) 2, .motorForward 0 0,
      .motorForward (1 / 2) 1]).left.1 : Int) ≤ cDefaultPower := by
  refine (@speed_sign_law [.motorForward (1 / 2) 2, .motorForward 0 0] (1 / 2) 1
    (by norm_num)).1 ?_
  simp only [List.cons_append, List.nil_append, List.forall_mem_cons]
  exact ⟨fun _ => by norm_num, fun h => absurd rfl h, fun _ => by norm_num, by simp⟩

end Chassis

end BuptCar
