import BuptCar.Proof.Assigned
import BuptCar.Proof.Classification
import BuptCar.Proof.Color
import BuptCar.Proof.Exposure
import BuptCar.Proof.Package
import BuptCar.Proof.Pilot
import BuptCar.Proof.Screen

/-!
# From the program to the panel

`panelMachine` is the car with its display. As long as the numbers it prints are values of `int`,
every call fits (`fits_oledCalls`), so along every run the panel gets the pictures of the texts the
program writes (`panel_run`).
-/

namespace BuptCar

namespace OledCall

/-- The constant texts of the program are short and have no line break. -/
def Plain (str : Text) : Prop := str.length ≤ 20 ∧ OneLine str

instance (str : Text) : Decidable (Plain str) := inferInstanceAs (Decidable (_ ∧ _))

theorem fits_print {str : Text} (h : Plain str) {row : Int} (hrow : 0 ≤ row ∧ row < 32) :
    (print str row).Fits := ⟨hrow, by have := h.1; omega, h.2⟩

theorem length_showInt {n : Int} (h : Is32 n) : (showInt n).length ≤ 11 := by
  obtain ⟨hlo, hhi⟩ := h
  exact length_showInt_le (k := 10) (by decide) (by omega)

theorem oneLine_showInt (n : Int) : OneLine (showInt n) :=
  ⟨not_mem_showInt (by decide) (by decide), not_mem_showInt (by decide) (by decide)⟩

theorem fits_printVal {hint : Text} (h : Plain hint) {val row : Int} (hval : Is32 val)
    (hrow : 0 ≤ row ∧ row < 32) : (printVal val hint row).Fits := by
  have hlen := length_showInt hval
  have hhint := h.1
  refine ⟨hrow, ?_, ?_⟩
  · simp only [List.length_append, List.length_cons, List.length_nil]
    omega
  · simp only [oneLine_append]
    exact ⟨⟨h.2, by decide⟩, oneLine_showInt val⟩

theorem fits_printVals {hint1 hint2 : Text} (h1 : Plain hint1) (h2 : Plain hint2) {i1 i2 row : Int}
    (hi1 : Is32 i1) (hi2 : Is32 i2) (hrow : 0 ≤ row ∧ row < 32) :
    (printVals hint1 i1 hint2 i2 row).Fits := by
  have hlen1 := length_showInt hi1
  have hlen2 := length_showInt hi2
  have hhint1 := h1.1
  have hhint2 := h2.1
  refine ⟨hrow, ?_, ?_⟩
  · simp only [List.length_append, List.length_cons, List.length_nil]
    omega
  · simp only [oneLine_append]
    exact ⟨⟨⟨⟨⟨⟨h1.2, by decide⟩, oneLine_showInt i1⟩, by decide⟩, h2.2⟩, by decide⟩,
      oneLine_showInt i2⟩

theorem fits_printAndFlush {str : Text} (h : Plain str) {row : Int} (hrow : 0 ≤ row ∧ row < 32) :
    ∀ c ∈ oledPrintAndFlush str row, c.Fits := by
  unfold oledPrintAndFlush
  simp only [List.forall_mem_cons]
  exact ⟨trivial, fits_print h hrow, trivial, nofun⟩

theorem fits_countdown {hint : Text} (h : Plain (hint ++ ['.', '.', '.'])) {row : Int}
    (hrow : 0 ≤ row ∧ row < 32) : ∀ c ∈ oledCountdown hint row, c.Fits := by
  obtain ⟨hlen, hall⟩ := h
  rw [List.length_append] at hlen
  have hdots : ∀ dots : Text, dots.length ≤ 3 → OneLine dots → Plain (hint ++ dots) := by
    intro dots hle hd
    simp only [List.length_cons, List.length_nil] at hlen
    exact ⟨by rw [List.length_append]; omega, oneLine_append.2 ⟨(oneLine_append.1 hall).1, hd⟩⟩
  unfold oledCountdown
  simp only [List.forall_mem_append]
  exact ⟨⟨fits_printAndFlush (hdots _ (by decide) (by decide)) hrow,
    fits_printAndFlush (hdots _ (by decide) (by decide)) hrow⟩,
    fits_printAndFlush (hdots _ (by decide) (by decide)) hrow⟩

end OledCall

open OledCall

theorem is32_toNat (n : UInt16) : Is32 n.toNat := by
  have := n.toNat_lt
  unfold Is32
  omega

theorem is32_toInt32 (n : Int) : Is32 (toInt32 n) :=
  ⟨BitVec.le_toInt _, BitVec.toInt_lt⟩

/-- The numbers of a record. -/
def ExplosureRecord.Printable (r : ExplosureRecord) : Prop := Is32 r.explosureTime ∧ Is32 r.avgVal

namespace Ccd

theorem selectRecord_printable {s : Selection} (hs : s.bestRecord.Printable) {r : ExplosureRecord}
    (hr : r.Printable) : (selectRecord s r).bestRecord.Printable := by
  unfold selectRecord
  split
  · exact hs
  · by_cases hc : r.contrast < s.minContrast
    · simp only [hc, if_true]
      split <;> exact hr
    · simp only [hc, if_false]
      split <;> exact hs

theorem avgVal_is32 (frame : Frame) : Is32 (avgVal frame) := by
  obtain ⟨⟨i, -, hmin⟩, -⟩ := minVal_isLeast frame
  obtain ⟨⟨j, -, hmax⟩, -⟩ := maxVal_isGreatest frame
  have h1 := linearData_le frame i
  have h2 := linearData_le frame j
  have h3 := minVal_nonneg frame
  have h4 := maxVal_nonneg frame
  rw [avgVal_eq]
  unfold Is32
  omega

theorem calibrationRecords_printable (frames : Nat → Frame × Frame) :
    ∀ r ∈ calibrationRecords frames, r.Printable := by
  intro r hr
  obtain ⟨i, hi, rfl⟩ := List.mem_map.1 hr
  have hi' := List.mem_range.1 hi
  refine ⟨?_, avgVal_is32 _⟩
  show Is32 (testedTime i)
  rw [show recordSize = 9 from rfl] at hi'
  unfold testedTime cExplosureTimeStart cExplosureTimePropagation Is32
  omega

theorem selectBest_printable {records : List ExplosureRecord} (hr : ∀ r ∈ records, r.Printable)
    {bestRecord : ExplosureRecord} (h : bestRecord.Printable) :
    (selectBest records bestRecord).1.Printable := by
  have hfold : ∀ s : Selection, s.bestRecord.Printable →
      (records.foldl selectRecord s).bestRecord.Printable := by
    induction records with
    | nil => exact fun s hs => hs
    | cons r records ih =>
      exact fun s hs => ih (fun x hx => hr x (List.mem_cons_of_mem r hx)) _
        (selectRecord_printable hs (hr r List.mem_cons_self))
  exact hfold _ h

end Ccd

/-- What the calibration leaves is printable if what was there before is. -/
theorem Car.calibrate_printable {p : Prelude} (h : p.bestRecord.Printable) :
    (calibrate p).1.bestRecord.Printable := by
  obtain ⟨hb, hc⟩ := setupBlankColor_kept p.blankBuff (setup p.bestRecord)
  rw [calibrate, prepareCCD_eq, adopt_bestRecord, hb, hc, (Ccd.getBestExplosureTime_eq _ _ _).1]
  exact Ccd.selectBest_printable (Ccd.calibrationRecords_printable p.frames) h

theorem fits_prelude {p : Prelude} (hp : p.bestRecord.Printable) :
    ∀ c ∈ setupCalls ++ task2Calls p, c.Fits := by
  have h := Car.calibrate_printable hp
  unfold task2Calls blankCalls prepareCalls
  simp only [List.forall_mem_append, List.forall_mem_cons]
  refine ⟨fits_countdown (by decide) (by decide), ⟨⟨trivial,
    fits_printVal (by decide) (is32_toNat _) (by decide),
    fits_printVal (by decide) (is32_toNat _) (by decide),
    fits_printVal (by decide) (is32_toNat _) (by decide), trivial, nofun⟩, ⟨trivial,
    fits_printVal (by decide) h.1 (by decide), fits_printVal (by decide) h.2 (by decide), trivial,
    trivial, nofun⟩⟩, fits_print ?_ (by decide), trivial, nofun⟩
  split <;> decide

namespace Car

variable {inp : Inputs} {c : Car}

theorem fits_countCalls (c : Car) : ∀ d ∈ c.countCalls, d.Fits := by
  obtain ⟨hblack, htotal⟩ := Ccd.parseBinaryVals_eq c.ccd
  have hle := List.countP_le_length (p := c.ccd.binaryData) (l := window)
  rw [Ccd.length_window] at hle
  have hsum : c.ccd.parseBinaryVals.2.2 = c.ccd.parseBinaryVals.1 + c.ccd.parseBinaryVals.2.1 := rfl
  unfold countCalls
  generalize c.ccd.parseBinaryVals = r at hblack htotal hsum ⊢
  obtain ⟨blackNum, whiteNum, totalNum⟩ := r
  dsimp only at hblack htotal hsum ⊢
  rw [List.forall_mem_singleton]
  refine fits_printVals (by decide) (by decide) ?_ ?_ (by decide) <;> unfold Is32 <;> omega

theorem plain_colorName (k : Nat) : Plain (colorLookupArray.getD k []) := by
  by_cases hk : k < 5
  · interval_cases k <;> decide
  · have hnone : colorLookupArray[k]? = none := List.getElem?_eq_none (Nat.le_of_not_lt hk)
    rw [List.getD_eq_getElem?_getD, hnone]
    decide

theorem is32_relativeVal (raw blank : UInt16) : Is32 (relativeVal raw blank) := by
  have hr := raw.toNat_lt
  rw [relativeVal_eq]
  unfold Is32
  omega

theorem fits_platformCalls (h : Is32 (c.location + 1)) : ∀ d ∈ c.platformCalls inp, d.Fits := by
  unfold platformCalls locationCalls rgbCalls
  simp only [List.forall_mem_append, List.forall_mem_cons]
  exact ⟨⟨⟨trivial, fits_printVal (by decide) h (by decide), trivial, nofun⟩,
    fits_countdown (by decide) (by decide)⟩, trivial,
    fits_printVal (by decide) (is32_relativeVal _ _) (by decide),
    fits_printVal (by decide) (is32_relativeVal _ _) (by decide),
    fits_printVal (by decide) (is32_relativeVal _ _) (by decide),
    fits_print (plain_colorName _) (by decide), trivial, nofun⟩

theorem is32_getTime (c : Car) (millis : Nat) : Is32 (c.getTime millis).1 := by
  unfold getTime
  dsimp only
  split
  · exact ⟨by decide, by decide⟩
  · exact is32_toInt32 _

theorem fits_trackingCalls (hE : Is32 c.bestRecord.explosureTime) (hl : Is32 (c.location + 1)) :
    ∀ d ∈ c.trackingCalls inp, d.Fits := by
  rw [trackingCalls_eq]
  unfold measuredCalls
  simp only [List.forall_mem_append, List.forall_mem_cons]
  refine ⟨trivial, ⟨?_, fits_countCalls _⟩, fits_print ?_ (by decide), ?_⟩
  · split
    · exact nofun
    · rw [List.forall_mem_singleton, (sensed_kept inp c).1]
      exact fits_printVals (by decide) (by decide) hE (is32_getTime c _) (by decide)
  · cases c.status inp <;> decide
  · cases c.status inp with
    | normal => exact List.forall_mem_singleton.2 trivial
    | platform =>
      refine fits_platformCalls ?_
      rwa [(quiet_sensed inp c).location]
    | noTrack => exact nofun

theorem fits_oledCalls (hE : Is32 c.bestRecord.explosureTime) (hl : Is32 (c.location + 1))
    (inp : Inputs) : ∀ d ∈ c.oledCalls inp, d.Fits := by
  unfold oledCalls
  cases c.control with
  | btMode =>
    unfold btCalls
    dsimp only
    split
    · exact fits_printAndFlush (by decide) (by decide)
    · exact nofun
  | tracking => exact fits_trackingCalls hE hl
  | discarding => exact fits_countCalls _
  | leaving =>
    unfold awaitCalls
    simp only [List.forall_mem_append, List.forall_mem_singleton]
    refine ⟨⟨fits_countCalls _, trivial⟩, ?_⟩
    split
    · exact List.forall_mem_singleton.2 trivial
    · exact nofun
  | halted => exact nofun

end Car

def panelMachine (font : Nat → BitVec 8) (WIRE_MAX : Nat) (d : Display) (p : Prelude) :
    Machine (Car × Oled) Inputs where
  init := (task2 p, (oledMachine font WIRE_MAX d).run (setupCalls ++ task2Calls p))
  step := fun s inp => (s.1.step inp, (s.1.oledCalls inp).foldl (Oled.call font WIRE_MAX) s.2)

theorem panelMachine_car {font : Nat → BitVec 8} {WIRE_MAX : Nat} {d : Display} {p : Prelude}
    (s : Car × Oled) (is : List Inputs) :
    ((panelMachine font WIRE_MAX d p).runFrom s is).1 = (task2Machine p).runFrom s.1 is :=
  Machine.runFrom_congr (M := panelMachine font WIRE_MAX d p) (N := task2Machine p)
    (R := fun s c => s.1 = c) (fun _ _ _ h => congrArg (Car.step · _) h) rfl is

theorem Agrees.calls {font : Nat → BitVec 8} {WIRE_MAX : Nat} (hW : 2 ≤ WIRE_MAX) {d : Display}
    (hd : d.Lettering) {s : Oled} {t : Texts} (h : Agrees font d s t) {cs : List OledCall}
    (hcs : ∀ c ∈ cs, c.Fits) :
    Agrees font d (cs.foldl (Oled.call font WIRE_MAX) s) (t.calls d.columns cs) :=
  Machine.runFrom_congr_mem (M := oledMachine font WIRE_MAX d) (N := textMachine d.columns)
    (fun _ _ c hc h => h.call hd hW (hcs c hc)) h

/-- What the car keeps of the numbers it prints. -/
structure Printing (r : ExplosureRecord) (steps : Nat) (c : Car) : Prop where
  bestRecord : c.bestRecord = r
  location : 0 ≤ c.location ∧ c.location ≤ steps

theorem Printing.step {r : ExplosureRecord} {steps : Nat} {c : Car} (h : Printing r steps c)
    (inp : Inputs) : Printing r (steps + 1) (c.step inp) := by
  obtain ⟨hr, hl0, hl1⟩ := h
  refine ⟨(Car.step_kept inp c).1.trans hr, ?_⟩
  rw [Car.step_location]
  split <;> omega

theorem Car.prepareCCD_location (frames : Nat → Frame × Frame) (c : Car) :
    (c.prepareCCD frames).1.location = c.location := by
  unfold prepareCCD
  generalize c.ccd.getBestExplosureTime frames c.bestRecord = r
  rfl

theorem Car.calibrate_location (p : Prelude) : (calibrate p).1.location = 0 := by
  unfold calibrate
  rw [prepareCCD_location]
  rfl

theorem task2_printing (p : Prelude) : Printing (Car.calibrate p).1.bestRecord 0 (task2 p) := by
  have hloc := Car.calibrate_location p
  unfold task2
  generalize Car.calibrate p = r at hloc ⊢
  obtain ⟨c, b⟩ := r
  dsimp only at hloc
  cases b <;> exact ⟨rfl, hloc.ge, hloc.le⟩

/-- A start over a line does not block the camera, whatever the blank reading is. -/
theorem Car.line_unblocked (blankBuff : RawBuff) :
    (calibrate { linePrelude with blankBuff := blankBuff }).2 = false := by
  rw [calibrate, prepareCCD_eq, adopt_isBlocked, (Ccd.getBestExplosureTime_eq _ _ _).2]
  show (Ccd.selectBest (Ccd.calibrationRecords linePrelude.frames) linePrelude.bestRecord).2 = _
  decide +kernel

end BuptCar
