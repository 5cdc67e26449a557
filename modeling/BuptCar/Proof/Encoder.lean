import BuptCar.Dep.SpeedControl
import BuptCar.Lib.Machine

/-!
# The encoder's counter under interrupts

`getSpeed` reads `rotateCount` and resets it in two steps, and `motorCountInterrupt` may run between
any two steps. `Encoder` is the counter with the call in progress (`inFlight`, the count it has
read) and two ghosts: the counts of the completed calls and the number of interrupts.

`Balance e lost`: every interrupt has been consumed, is pending, or is one of the `lost` ones, those
between a read and its reset. So the counts add up exactly for the schedules without such an
interrupt (`pulses_conserved_iff`).
-/

namespace BuptCar

structure Encoder where
  speed : SpeedControl
  inFlight : Option Nat
  consumed : List Nat
  interrupts : Nat

/-- One step of the schedule: the next step of `getSpeed`, or an interrupt. -/
inductive Tick
  | getSpeed (millis : Nat)
  | interrupt

namespace Encoder

def step (e : Encoder) : Tick → Encoder
  | .getSpeed millis =>
    match e.inFlight with
    | none =>
      let r := e.speed.readCount millis
      { e with speed := r.2, inFlight := some r.2.rotateCount }
    | some count =>
      { e with speed := e.speed.clearCount, inFlight := none, consumed := e.consumed ++ [count] }
  | .interrupt =>
    { e with speed := e.speed.motorCountInterrupt, interrupts := e.interrupts + 1 }

/-- All schedules, from power-on. -/
def machine : Machine Encoder Tick where
  init := { speed := {}, inFlight := none, consumed := [], interrupts := 0 }
  step := step

/-- Two steps in a row are a call of `getSpeed`. -/
theorem step_getSpeed (e : Encoder) (h : e.inFlight = none) (millis millis' : Nat) :
    (e.step (.getSpeed millis)).step (.getSpeed millis') =
      { e with
        speed := (e.speed.getSpeed millis).2
        consumed := e.consumed ++ [e.speed.rotateCount] } := by
  simp [step, h, SpeedControl.getSpeed]

/-- Labels the interrupts between a read and its reset. -/
def lostPulse (e : Encoder) : Tick → Option Unit
  | .getSpeed _ => none
  | .interrupt => e.inFlight.map fun _ => ()

/-- The count a reset is going to account for, or would if it came now. -/
def pending (e : Encoder) : Nat := e.inFlight.getD e.speed.rotateCount

structure Balance (e : Encoder) (lost : Nat) : Prop where
  sum : e.consumed.sum + e.pending + lost = e.interrupts
  count : e.speed.rotateCount ≤ e.interrupts

theorem Balance.step {e : Encoder} {lost : Nat} (h : Balance e lost) {t : Tick}
    (hlt : (e.step t).interrupts < 2 ^ 32) :
    Balance (e.step t) (lost + (e.lostPulse t).toList.length) := by
  obtain ⟨hsum, hcount⟩ := h
  cases t with
  | getSpeed millis =>
    cases hf : e.inFlight with
    | none =>
      simp only [pending, hf, Option.getD_none] at hsum
      constructor
      · simpa [Encoder.step, hf, pending, lostPulse] using hsum
      · simpa [Encoder.step, hf] using hcount
    | some count =>
      simp only [pending, hf, Option.getD_some] at hsum
      constructor
      · simpa [Encoder.step, hf, pending, lostPulse] using hsum
      · simp [Encoder.step, hf]
  | interrupt =>
    have hlt' : e.interrupts + 1 < 2 ^ 32 := hlt
    have hc : (e.step .interrupt).speed.rotateCount = e.speed.rotateCount + 1 :=
      SpeedControl.motorCountInterrupt_rotateCount _ (by omega)
    refine ⟨?_, by rw [hc]; exact Nat.add_le_add_right hcount 1⟩
    have hflight : (e.step .interrupt).inFlight = e.inFlight := rfl
    show e.consumed.sum + (e.step .interrupt).pending + _ = e.interrupts + 1
    cases hf : e.inFlight with
    | none =>
      simp only [pending, hf, Option.getD_none] at hsum
      simp only [pending, hflight, hf, Option.getD_none, hc, lostPulse, Option.map_none,
        Option.toList_none, List.length_nil]
      omega
    | some count =>
      -- the count is read already, and the reset will wipe the pulse
      simp only [pending, hf, Option.getD_some] at hsum
      simp only [pending, hflight, hf, Option.getD_some, lostPulse, Option.map_some,
        Option.toList_some, List.length_cons, List.length_nil]
      omega

theorem interrupts_le_step (e : Encoder) (t : Tick) : e.interrupts ≤ (e.step t).interrupts := by
  cases t with
  | getSpeed millis => cases hf : e.inFlight <;> simp [step, hf]
  | interrupt => exact Nat.le_succ _

theorem balance_run (ticks : List Tick) (hlt : (machine.run ticks).interrupts < 2 ^ 32) :
    Balance (machine.run ticks) (machine.labels lostPulse ticks).length := by
  induction ticks using List.reverseRecOn with
  | nil => exact ⟨rfl, Nat.le_refl _⟩
  | append_singleton ticks t ih =>
    rw [Machine.labels_concat, List.length_append]
    rw [Machine.run_concat] at hlt ⊢
    exact (ih (Nat.lt_of_le_of_lt (interrupts_le_step _ t) hlt)).step hlt

/-- **The counts add up iff no interrupt falls between a read and its reset**: with no call in
progress, the counts consumed and the current one are all interrupts so far. -/
theorem pulses_conserved_iff {ticks : List Tick} (hidle : (machine.run ticks).inFlight = none)
    (hlt : (machine.run ticks).interrupts < 2 ^ 32) :
    (machine.run ticks).consumed.sum + (machine.run ticks).speed.rotateCount =
        (machine.run ticks).interrupts ↔
      ∀ pre post, ticks = pre ++ .interrupt :: post → (machine.run pre).inFlight = none := by
  have hb := (balance_run ticks hlt).sum
  simp only [pending, hidle, Option.getD_none] at hb
  have hlost : (machine.run ticks).consumed.sum + (machine.run ticks).speed.rotateCount =
      (machine.run ticks).interrupts ↔ machine.labels lostPulse ticks = [] := by
    rw [← List.length_eq_zero_iff]
    omega
  rw [hlost, Machine.labels_eq_nil_iff]
  constructor
  · intro h pre post heq
    simpa [lostPulse] using h pre .interrupt post heq
  · intro h pre t post heq
    cases t with
    | getSpeed millis => rfl
    | interrupt => simp [lostPulse, h pre post heq]

/-- A schedule whose interrupts all fall between calls. -/
theorem pulses_conserved_between_calls :
    (machine.run [.interrupt, .getSpeed 5, .getSpeed 5, .interrupt]).consumed.sum +
        (machine.run [.interrupt, .getSpeed 5, .getSpeed 5, .interrupt]).speed.rotateCount =
      (machine.run [.interrupt, .getSpeed 5, .getSpeed 5, .interrupt]).interrupts := by
  refine (pulses_conserved_iff (by rfl) (by decide)).2 fun pre post heq => ?_
  match pre, heq with
  | [], _ => rfl
  | [_, _, _], heq =>
    simp only [List.cons_append, List.nil_append, List.cons.injEq] at heq
    obtain ⟨rfl, rfl, rfl, -⟩ := heq
    rfl
  | [_], heq => simp at heq
  | [_, _], heq => simp at heq
  | _ :: _ :: _ :: _ :: pre, heq => simp at heq

/-- **A pulse between the read and the reset is lost.** -/
theorem pulse_lost : ¬∀ ticks : List Tick, (machine.run ticks).inFlight = none →
    (machine.run ticks).interrupts < 2 ^ 32 →
    (machine.run ticks).consumed.sum + (machine.run ticks).speed.rotateCount =
      (machine.run ticks).interrupts := by
  intro h
  have := h [.getSpeed 5, .interrupt, .getSpeed 5] rfl (by decide)
  exact absurd this (by decide)

end Encoder

end BuptCar
