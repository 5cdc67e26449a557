import BuptCar.Proof.Step
import Mathlib.Data.List.Chain

/-!
# The loop timer

`getTime` keeps the 32-bit uptime in an `int`. The difference of two readings wraps back to the time
between them (`toInt32_sub`), but 0 doubles as "never set", and the subtraction leaves the range of
`int` where the clock's sign bit turns on in between. So a call returns the time since the previous
one, without overflow, exactly where that one was not at a multiple of 2³² ms and both lie on one
side of every odd multiple of 2³¹ ms (`loop_timer_iff`).
-/

namespace BuptCar

/-! ## The signed clock -/

/-- How often the clock's sign bit has turned on by the uptime `t`. -/
def signTurns (t : Nat) : Nat := (t + 2 ^ 31) / 2 ^ 32

theorem toInt32_eq (n : Int) : toInt32 n = n - 2 ^ 32 * ((n + 2 ^ 31) / 2 ^ 32) := by
  rw [toInt32, BitVec.toInt_ofInt, Int.bmod_def]
  split <;> omega

theorem toInt32_natCast (t : Nat) : toInt32 t = t - 2 ^ 32 * (signTurns t : Int) := by
  rw [toInt32_eq, signTurns]
  omega

theorem toInt32_eq_zero_iff (t : Nat) : toInt32 t = 0 ↔ t % 2 ^ 32 = 0 := by
  rw [toInt32_eq]
  omega

section
variable {s t : Nat}

theorem signTurns_le (h : s < t) (ht : t < s + 2 ^ 31) :
    signTurns s ≤ signTurns t ∧ signTurns t ≤ signTurns s + 1 := by
  unfold signTurns
  omega

/-- The wrapped difference of two readings less than 2³¹ ms apart is the time between them. -/
theorem toInt32_sub (h : s < t) (ht : t < s + 2 ^ 31) :
    toInt32 (toInt32 t - toInt32 s) = (t : Int) - s := by
  rw [toInt32_natCast, toInt32_natCast, toInt32_eq]
  omega

/-- The subtraction overflows where the sign bit turns on in between. -/
theorem toInt32_sub_is32 (h : s < t) (ht : t < s + 2 ^ 31) :
    Is32 (toInt32 t - toInt32 s) ↔ signTurns s = signTurns t := by
  obtain ⟨hle, hge⟩ := signTurns_le h ht
  rw [toInt32_natCast, toInt32_natCast, Is32]
  omega

end

namespace Car

/-! ## One call behind another -/

/-- A call of `getTime` at the uptime `t` measures the time since `s`. -/
structure Timed (c : Car) (s t : Nat) : Prop where
  duration : (c.getTime t).1 = (t : Int) - s
  recorded : (c.getTime t).1 ≠ -1
  subtracts : Is32 (toInt32 t - c.prevTime)

/-- The clock does not read 0 at `s`, and its sign bit does not turn on between `s` and `t`. -/
def Comparable (s t : Nat) : Prop := s % 2 ^ 32 ≠ 0 ∧ signTurns s = signTurns t

theorem timed_iff {c : Car} {s t : Nat} (hc : c.prevTime = toInt32 s) (h : s < t)
    (ht : t < s + 2 ^ 31) : Timed c s t ↔ Comparable s t := by
  refine ⟨fun htimed => ?_, fun hcomp => ?_⟩
  · obtain ⟨-, hset, hsub⟩ := htimed
    rw [hc, toInt32_sub_is32 h ht] at hsub
    refine ⟨fun hs => hset ?_, hsub⟩
    exact getTime_unset (hc.trans ((toInt32_eq_zero_iff s).2 hs)) t
  · obtain ⟨hs, hturns⟩ := hcomp
    have hset : c.prevTime ≠ 0 := fun h0 => hs ((toInt32_eq_zero_iff s).1 (hc.symm.trans h0))
    have hd : (c.getTime t).1 = (t : Int) - s := by
      rw [getTime_set hset, hc, toInt32_sub h ht]
    refine ⟨hd, by omega, ?_⟩
    rw [hc]
    exact (toInt32_sub_is32 h ht).2 hturns

/-! ## Successive calls -/

/-- Calls of `getTime` at the given uptimes. -/
def timerMachine (bestRecord : ExplosureRecord) : Machine Car Nat where
  init := setup bestRecord
  step c t := (c.getTime t).2

theorem timer_prevTime (bestRecord : ExplosureRecord) (pre : List Nat) (s : Nat) :
    ((timerMachine bestRecord).run (pre ++ [s])).prevTime = toInt32 s := by
  rw [Machine.run_concat]
  rfl

/-- The uptime that a step of the loops reads in `getTime`. -/
def uptime (c : Car) (inp : Inputs) : Option Nat :=
  if c.control = .tracking then some inp.millis else none

/-- The tracking loop calls `getTime` once an iteration and touches its record nowhere else. -/
theorem timer_sim (p : Prelude) (bestRecord : ExplosureRecord) :
    (trackingMachine p bestRecord).Sim (timerMachine bestRecord) uptime
      fun c d => c.prevTime = d.prevTime where
  init := rfl
  step c d inp h := by
    show (c.step inp).prevTime = _
    rw [(step_kept inp c).2, uptime]
    split
    · rfl
    · exact h

/-- So an iteration is timed as a call behind the one of the last iteration. -/
theorem tracking_timed {p : Prelude} {bestRecord : ExplosureRecord} {is : List Inputs}
    {pre : List Nat} {s : Nat}
    (h : (trackingMachine p bestRecord).labels uptime is = pre ++ [s]) {inp : Inputs}
    (hlt : s < inp.millis) (hgap : inp.millis < s + 2 ^ 31) :
    Timed ((trackingMachine p bestRecord).run is) s inp.millis ↔ Comparable s inp.millis := by
  have hprev := (timer_sim p bestRecord).run is
  rw [h, timer_prevTime] at hprev
  exact timed_iff hprev hlt hgap

/-- **The loop timer.** In a sequence of calls less than 2³¹ ms apart, every call behind the first
returns the time since the previous one, without overflow, exactly if no call but the last is at a
multiple of 2³² ms and no odd multiple of 2³¹ ms lies behind one call and not behind the next. -/
theorem loop_timer_iff (bestRecord : ExplosureRecord) {Ts : List Nat}
    (h : Ts.IsChain fun s t => s < t ∧ t < s + 2 ^ 31) :
    (∀ pre s t post, Ts = pre ++ s :: t :: post →
      Timed ((timerMachine bestRecord).run (pre ++ [s])) s t) ↔ Ts.IsChain Comparable := by
  rw [List.isChain_iff_forall_rel_of_append_cons_cons] at h ⊢
  refine ⟨fun hcalls s t pre post heq => ?_, fun hcomp pre s t post heq => ?_⟩
  · obtain ⟨hlt, hgap⟩ := h heq
    exact (timed_iff (timer_prevTime bestRecord pre s) hlt hgap).1 (hcalls pre s t post heq)
  · obtain ⟨hlt, hgap⟩ := h heq
    exact (timed_iff (timer_prevTime bestRecord pre s) hlt hgap).2 (hcomp heq)

/-- Iterations of a few milliseconds in the first minute. -/
theorem loop_timer_minute : Comparable 60000 60025 ∧
    Timed ((timerMachine ⟨0, 0, 0, 0, false, 0⟩).run [60000]) 60000 60025 := by
  have hcomp : Comparable 60000 60025 := by
    unfold Comparable signTurns
    decide
  have hcalls := (@loop_timer_iff ⟨0, 0, 0, 0, false, 0⟩ [60000, 60025]
    (List.isChain_pair.2 (by decide))).2 (List.isChain_pair.2 hcomp)
  exact ⟨hcomp, hcalls [] 60000 60025 [] rfl⟩

/-- A call at 2³² ms reads 0, and the next one returns -1. -/
theorem timer_wraps : ¬∀ (bestRecord : ExplosureRecord) (Ts : List Nat), (∀ t ∈ Ts, 0 < t) →
    (Ts.IsChain fun s t => s < t ∧ t < s + 2 ^ 31) →
    ∀ pre s t post, Ts = pre ++ s :: t :: post →
      Timed ((timerMachine bestRecord).run (pre ++ [s])) s t := by
  intro h
  have hcall := h ⟨0, 0, 0, 0, false, 0⟩ [4294967296, 4294967306] (by decide)
    (List.isChain_pair.2 (by decide)) [] 4294967296 4294967306 [] rfl
  refine hcall.recorded (getTime_unset ?_ _)
  rw [timer_prevTime]
  exact (toInt32_eq_zero_iff 4294967296).2 (by decide)

end Car

end BuptCar
