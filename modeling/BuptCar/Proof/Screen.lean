import BuptCar.Proof.Oled
import BuptCar.Proof.Tracking
import BuptCar.Screen

/-!
# What is on the panel

`screenMachine` is the car with the screen of texts it writes. The two warnings of `autoTrack` never
get to the panel: a platform clears the screen before the next flush, and without a track the
program stays in its blinking loop (`warning_unseen`).
-/

namespace BuptCar

namespace Texts

variable {n : Nat}

def calls (n : Nat) (s : Texts) (cs : List OledCall) : Texts := cs.foldl (call n) s

theorem calls_cons (s : Texts) (c : OledCall) (cs : List OledCall) :
    s.calls n (c :: cs) = (s.call n c).calls n cs := rfl

theorem calls_append (s : Texts) (cs ds : List OledCall) :
    s.calls n (cs ++ ds) = (s.calls n cs).calls n ds := List.foldl_append

/-- All cells of a screen have a property. -/
def All (P : Nat → Nat → Prop) (t : Sheet Nat) : Prop := ∀ i c, t i = some c → P i c

/-- The screens shown have it, and the one being written. -/
structure Holds (P : Nat → Nat → Prop) (s : Texts) : Prop where
  text : All P s.text
  shown : ∀ τ ∈ s.shown, All P τ

end Texts

namespace Texts

variable {n : Nat} {P : Nat → Nat → Prop} {s : Texts}

theorem all_empty : All P Sheet.empty := fun _ _ h => nomatch h

/-- What a call writes has it. -/
def Writes (n : Nat) (P : Nat → Nat → Prop) : OledCall → Prop
  | .print str row => ∀ j c, (cString str)[j]? = some c → P (row.toNat * n + j) c
  | _ => True

theorem Holds.call (h : Holds P s) {c : OledCall} (hc : Writes n P c) : Holds P (s.call n c) := by
  cases c with
  | clear => exact ⟨all_empty, h.shown⟩
  | print str row => exact ⟨fun i c hi => Sheet.put_all hc h.text i c hi, h.shown⟩
  | flush =>
    refine ⟨h.text, fun τ hτ => ?_⟩
    rcases List.mem_append.1 hτ with hτ | hτ
    · exact h.shown τ hτ
    · rw [List.mem_singleton.1 hτ]
      exact h.text

theorem Holds.calls (h : Holds P s) {cs : List OledCall} (hcs : ∀ c ∈ cs, Writes n P c) :
    Holds P (s.calls n cs) := by
  induction cs generalizing s with
  | nil => exact h
  | cons c cs ih =>
    exact ih (h.call (hcs c List.mem_cons_self)) fun d hd => hcs d (List.mem_cons_of_mem c hd)

/-- A cleared screen has every property. -/
theorem Holds.cleared (h : ∀ τ ∈ s.shown, All P τ) {cs : List OledCall}
    (hcs : ∀ c ∈ cs, Writes n P c) : Holds P (s.calls n (.clear :: cs)) :=
  Holds.calls (s := s.call n .clear) ⟨all_empty, h⟩ hcs

end Texts

def screenMachine (n : Nat) (p : Prelude) : Machine (Car × Texts) Inputs where
  init := (task2 p, Texts.greeted.calls n (setupCalls ++ task2Calls p))
  step := fun s inp => (s.1.step inp, s.2.calls n (s.1.oledCalls inp))

/-! ## The warnings -/

/-- Row 1 does not begin with the `!` of the warnings. -/
abbrev Calm (n i c : Nat) : Prop := i = n → c ≠ 33

variable {n : Nat}

theorem calm_print {str : Text} (h : '!' ∉ str) (row : Int) :
    Texts.Writes n (Calm n) (.print str row) := by
  intro j m hm _ heq
  obtain ⟨c, hc, rfl⟩ := List.mem_map.1 (List.mem_of_getElem? hm)
  rw [Char.toNat_inj (d := '!') |>.1 heq] at hc
  exact h hc

/-- `CONNECTED!` begins with another character. -/
theorem calm_connected : Texts.Writes n (Calm n) (.print "CONNECTED!".toList 1) := by
  intro j c hj hn
  rw [Int.toNat_one, Nat.one_mul] at hn
  obtain rfl : j = 0 := by omega
  obtain rfl : 67 = c := Option.some.inj hj
  decide

theorem calm_printVal {hint : Text} (h : '!' ∉ hint) (val row : Int) :
    Texts.Writes n (Calm n) (OledCall.printVal val hint row) := by
  refine calm_print ?_ row
  simp only [List.mem_append, not_or]
  exact ⟨⟨h, by decide⟩, not_mem_showInt (by decide) (by decide)⟩

theorem calm_printVals {hint1 hint2 : Text} (h1 : '!' ∉ hint1) (h2 : '!' ∉ hint2)
    (i1 i2 row : Int) : Texts.Writes n (Calm n) (OledCall.printVals hint1 i1 hint2 i2 row) := by
  have hval : ∀ i, '!' ∉ showInt i := fun i => not_mem_showInt (by decide) (by decide)
  refine calm_print ?_ row
  simp only [List.mem_append, not_or]
  exact ⟨⟨⟨⟨⟨⟨h1, by decide⟩, hval i1⟩, by decide⟩, h2⟩, by decide⟩, hval i2⟩

theorem calm_printAndFlush {str : Text} (h : '!' ∉ str) (row : Int) :
    ∀ c ∈ OledCall.oledPrintAndFlush str row, Texts.Writes n (Calm n) c := by
  unfold OledCall.oledPrintAndFlush
  simp only [List.forall_mem_cons]
  exact ⟨trivial, calm_print h row, trivial, nofun⟩

theorem calm_countdown {hint : Text} (h : '!' ∉ hint) (row : Int) :
    ∀ c ∈ OledCall.oledCountdown hint row, Texts.Writes n (Calm n) c := by
  unfold OledCall.oledCountdown
  simp only [List.forall_mem_append]
  refine ⟨⟨calm_printAndFlush ?_ row, calm_printAndFlush ?_ row⟩, calm_printAndFlush ?_ row⟩ <;>
    rw [List.mem_append, not_or] <;> exact ⟨h, by decide⟩

theorem calm_prelude (p : Prelude) :
    ∀ c ∈ setupCalls ++ task2Calls p, Texts.Writes n (Calm n) c := by
  unfold task2Calls blankCalls prepareCalls
  simp only [List.forall_mem_append, List.forall_mem_cons]
  refine ⟨calm_countdown (by decide) 1, ⟨⟨trivial, calm_printVal (by decide) _ _,
    calm_printVal (by decide) _ _, calm_printVal (by decide) _ _, trivial, nofun⟩, ⟨trivial,
    calm_printVal (by decide) _ _, calm_printVal (by decide) _ _, trivial, trivial, nofun⟩⟩,
    calm_print ?_ 1, trivial, nofun⟩
  split <;> decide

namespace Car

variable (inp : Inputs) (c : Car)

theorem calm_countCalls : ∀ d ∈ c.countCalls, Texts.Writes n (Calm n) d := by
  unfold countCalls
  simp only [List.forall_mem_singleton]
  exact calm_printVals (by decide) (by decide) _ _ _

theorem calm_colorName (k : Nat) : '!' ∉ colorLookupArray.getD k [] := by
  by_cases hk : k < 5
  · interval_cases k <;> decide
  · have hnone : colorLookupArray[k]? = none := List.getElem?_eq_none (Nat.le_of_not_lt hk)
    rw [List.getD_eq_getElem?_getD, hnone]
    decide

theorem calm_platformCalls : ∀ d ∈ c.platformCalls inp, Texts.Writes n (Calm n) d := by
  unfold platformCalls locationCalls rgbCalls
  simp only [List.forall_mem_append, List.forall_mem_cons]
  exact ⟨⟨⟨trivial, calm_printVal (by decide) _ _, trivial, nofun⟩, calm_countdown (by decide) 1⟩,
    trivial, calm_printVal (by decide) _ _, calm_printVal (by decide) _ _,
    calm_printVal (by decide) _ _, calm_print (calm_colorName _) 3, trivial, nofun⟩

theorem platformCalls_clear : ∃ rest, c.platformCalls inp = .clear :: rest := ⟨_, rfl⟩

theorem calm_btCalls : ∀ d ∈ c.btCalls inp, Texts.Writes n (Calm n) d := by
  unfold btCalls
  split
  · unfold OledCall.oledPrintAndFlush
    simp only [List.forall_mem_cons]
    exact ⟨trivial, calm_connected, trivial, nofun⟩
  · exact nofun

theorem calm_awaitCalls : ∀ d ∈ c.awaitCalls inp, Texts.Writes n (Calm n) d := by
  unfold awaitCalls
  simp only [List.forall_mem_append, List.forall_mem_singleton]
  refine ⟨⟨calm_countCalls _, trivial⟩, ?_⟩
  split
  · exact List.forall_mem_singleton.2 trivial
  · exact nofun

/-- What an iteration draws before the status. -/
def measuredCalls : List OledCall :=
  (if (c.getTime inp.millis).1 = -1 then []
    else [OledCall.printVals "std".toList (c.sensed inp).1.bestRecord.explosureTime "frm".toList
      (c.getTime inp.millis).1 0]) ++ (c.sensed inp).1.countCalls

theorem calm_measuredCalls : ∀ d ∈ c.measuredCalls inp, Texts.Writes n (Calm n) d := by
  unfold measuredCalls
  rw [List.forall_mem_append]
  refine ⟨?_, calm_countCalls _⟩
  split
  · exact nofun
  · exact List.forall_mem_singleton.2 (calm_printVals (by decide) (by decide) _ _ _)

theorem headCalls_eq : c.headCalls inp =
    (.clear :: (c.measuredCalls inp ++ [.print (statusText (c.status inp)) 1]), (c.sensed inp).1,
      c.status inp) := by
  rw [← sensed_status]
  unfold headCalls measuredCalls
  simp only [List.cons_append, List.append_assoc]
  rfl

theorem trackingCalls_eq : c.trackingCalls inp =
    .clear :: (c.measuredCalls inp ++ .print (statusText (c.status inp)) 1 ::
      match c.status inp with
      | .normal => [.flush]
      | .platform => (c.sensed inp).1.platformCalls inp
      | .noTrack => []) := by
  unfold trackingCalls
  rw [headCalls_eq]
  cases c.status inp with
  | normal => simp only [List.cons_append, List.append_assoc, List.nil_append]
  | platform => simp only [List.cons_append, List.append_assoc, List.nil_append]
  | noTrack => simp only [List.cons_append, List.append_assoc, List.nil_append]

end Car

/-- No screen shown has a warning in row 1; the one being written has the warning of a lost track
once the car is halted. -/
structure Unseen (n : Nat) (s : Car × Texts) : Prop where
  shown : ∀ τ ∈ s.2.shown, Texts.All (Calm n) τ
  text : s.1.control ≠ .halted → Texts.All (Calm n) s.2.text
  halted : s.1.control = .halted → ∃ t : Sheet Nat,
    s.2.text = t.put n (cString "!!!NOTRACK".toList)

namespace Unseen

variable {n : Nat} {c : Car} {t : Texts}

theorem of_holds (h : Texts.Holds (Calm n) t) (hc : c.control ≠ .halted) : Unseen n (c, t) :=
  ⟨h.shown, fun _ => h.text, fun heq => absurd heq hc⟩

theorem holds (h : Unseen n (c, t)) (hc : c.control ≠ .halted) : Texts.Holds (Calm n) t :=
  ⟨h.text hc, h.shown⟩

theorem tracking (h : Unseen n (c, t)) (hc : c.control = .tracking) (inp : Inputs) :
    Unseen n (c.step inp, t.calls n (c.trackingCalls inp)) := by
  have hcontrol : (c.step inp).control = Car.controlAfter .tracking (c.status inp) := by
    rw [Car.step_tracking hc, Car.trackingLoop_control hc]
  have hhead := Texts.Holds.cleared h.shown (c.calm_measuredCalls inp)
  rw [Car.trackingCalls_eq, ← List.cons_append, Texts.calls_append]
  generalize t.calls n (.clear :: c.measuredCalls inp) = t' at hhead ⊢
  cases hs : c.status inp with
  | normal =>
    refine of_holds (hhead.calls ?_) (by rw [hcontrol, hs]; decide)
    exact List.forall_mem_cons.2 ⟨calm_print (by decide) 1, List.forall_mem_singleton.2 trivial⟩
  | platform =>
    -- the warning is cleared before the first flush
    refine of_holds ?_ (by rw [hcontrol, hs]; decide)
    have hcalm := (c.sensed inp).1.calm_platformCalls (n := n) inp
    obtain ⟨rest, hrest⟩ := (c.sensed inp).1.platformCalls_clear inp
    dsimp only
    rw [hrest] at hcalm ⊢
    rw [Texts.calls_cons]
    exact Texts.Holds.cleared hhead.shown (List.forall_mem_cons.1 hcalm).2
  | noTrack =>
    refine ⟨hhead.shown, fun hne => absurd (by rw [hcontrol, hs]; rfl) hne, fun _ => ⟨t'.text, ?_⟩⟩
    dsimp only
    rw [Texts.calls_cons, Texts.call, Int.toNat_one, Nat.one_mul]
    rfl

theorem step {s : Car × Texts} (h : Unseen n s) (inp : Inputs) :
    Unseen n (s.1.step inp, s.2.calls n (s.1.oledCalls inp)) := by
  obtain ⟨c, t⟩ := s
  unfold Car.oledCalls
  dsimp only
  cases hc : c.control with
  | btMode =>
    refine of_holds ((h.holds (by rw [hc]; decide)).calls (c.calm_btCalls inp)) ?_
    rw [Car.step, hc]
    obtain ⟨b, hb | hb⟩ := Car.btLoop_cases inp c
    · rw [hb, hc]
      decide
    · rw [hb, Car.delay, Car.emit, hc]
      decide
  | tracking => exact h.tracking hc inp
  | discarding =>
    refine of_holds ((h.holds (by rw [hc]; decide)).calls (Car.calm_countCalls _)) ?_
    rw [Car.step_discarding hc]
    exact Control.noConfusion
  | leaving =>
    refine of_holds ((h.holds (by rw [hc]; decide)).calls (c.calm_awaitCalls inp)) ?_
    rw [Car.step_leaving hc, Car.awaitTrack_control hc]
    split <;> decide
  | halted =>
    have hstep : (c.step inp).control = .halted := by rw [Car.step_halted hc]; exact hc
    exact ⟨h.shown, fun hne => absurd hstep hne, fun _ => h.halted hc⟩

theorem greeted : Texts.Holds (Calm n) Texts.greeted := by
  have hempty : Texts.Holds (Calm n) ⟨Sheet.empty, [Sheet.empty]⟩ :=
    ⟨Texts.all_empty, List.forall_mem_singleton.2 Texts.all_empty⟩
  have hcalls := hempty.calls (n := n) (List.forall_mem_cons.2
    ⟨calm_print (show '!' ∉ "Setup is OK".toList by decide) 0,
      List.forall_mem_singleton.2 (show Texts.Writes n (Calm n) .flush from trivial)⟩)
  rw [Texts.calls_cons, Texts.calls_cons, Texts.call, Int.toNat_zero, Nat.zero_mul] at hcalls
  exact hcalls

theorem init (p : Prelude) : Unseen n (screenMachine n p).init := by
  refine of_holds (greeted.calls (calm_prelude p)) ?_
  unfold task2
  generalize Car.calibrate p = r
  obtain ⟨c, b⟩ := r
  cases b <;> exact nofun

end Unseen

/-- The warnings of `autoTrack` are written and never shown: in every run, with or without a blocked
camera, no screen on the panel has one in its row, and behind a lost track the warning stays in the
buffer for ever. -/
theorem warning_unseen (n : Nat) (p : Prelude) (is : List Inputs) :
    (∀ τ ∈ ((screenMachine n p).run is).2.shown, τ n ≠ some 33) ∧
    (((screenMachine n p).run is).1.control = .halted → ∀ i (h : i < "!!!NOTRACK".toList.length),
      ((screenMachine n p).run is).2.text (n + i) = some "!!!NOTRACK".toList[i].toNat) := by
  have hrun : Unseen n ((screenMachine n p).run is) :=
    Machine.runFrom_invariant (fun _ inp h => h.step inp) (Unseen.init p) is
  refine ⟨fun τ hτ heq => hrun.shown τ hτ n 33 heq rfl rfl, fun hc i hi => ?_⟩
  obtain ⟨t, ht⟩ := hrun.halted hc
  have hlen : i < (cString "!!!NOTRACK".toList).length := by rwa [cString, List.length_map]
  rw [ht, Sheet.put_inside hlen]
  exact congrArg some (List.getElem_map _)

end BuptCar
