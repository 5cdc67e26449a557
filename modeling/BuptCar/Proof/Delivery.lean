import BuptCar.Proof.Package
import BuptCar.Proof.Step
import Mathlib.Data.List.GetD
import Mathlib.Data.List.Nodup

/-!
# Delivery of the platform readings

The car reads one colour at each visit, and none elsewhere (`visits_run`). Its log is a function of
the colours it has read (`deliveryLog`): `Delivered` is the invariant of the tracking loop that says
so, with the package holding the colours of the circle in progress. The uploader turns that log into
the goods of the completed circles (`reader_run`).

The location and the counts are unbounded here; in C they are `int`s.
-/

namespace BuptCar

/-! ## The log -/

/-- The colour `c_j` of visit `j`, counted from 1. -/
def colorAt (colors : List Int) (j : Nat) : Int := colors.getD (j - 1) 0

/-- Numbers, each followed by a comma. -/
def packageLine (ns : List Int) : Text := ns.flatMap fun n => showInt n ++ [',']

/-- What visit `j` sends. -/
def visitMessages (colors : List Int) (j : Nat) : List Text :=
  platformReached ::
    if j % 4 = 0 then
      [packageLine [(j / 4 : Nat), colorAt colors (j - 3), colorAt colors (j - 2),
        colorAt colors (j - 1), colorAt colors j]]
    else []

def deliveryLog (colors : List Int) : List Text :=
  (List.range' 1 colors.length).flatMap (visitMessages colors)

theorem colorAt_append {colors : List Int} {j : Nat} (h1 : 1 ≤ j) (h : j ≤ colors.length)
    (c : Int) : colorAt (colors ++ [c]) j = colorAt colors j :=
  List.getD_append _ _ _ _ (by omega)

theorem colorAt_last (colors : List Int) (c : Int) :
    colorAt (colors ++ [c]) (colors.length + 1) = c := by
  simp [colorAt]

theorem visitMessages_append {colors : List Int} {j : Nat} (h1 : 1 ≤ j) (h : j ≤ colors.length)
    (c : Int) : visitMessages (colors ++ [c]) j = visitMessages colors j := by
  unfold visitMessages
  by_cases hj : j % 4 = 0
  · rw [if_pos hj, if_pos hj, colorAt_append (by omega) (by omega), colorAt_append (by omega)
      (by omega), colorAt_append (by omega) (by omega), colorAt_append h1 h]
  · rw [if_neg hj, if_neg hj]

theorem deliveryLog_concat (colors : List Int) (c : Int) : deliveryLog (colors ++ [c]) =
    deliveryLog colors ++ visitMessages (colors ++ [c]) (colors.length + 1) := by
  have hlen : (colors ++ [c]).length = colors.length + 1 := by simp
  rw [deliveryLog, hlen, List.range'_1_concat, List.flatMap_append, List.flatMap_singleton,
    Nat.add_comm 1]
  congr 1
  refine List.flatMap_congr fun j hj => visitMessages_append ?_ ?_ c
  · exact (List.mem_range'_1.1 hj).1
  · have := (List.mem_range'_1.1 hj).2
    omega

/-! ## The car -/

namespace Car

/-- The invariant of the tracking loop. -/
structure Delivered (c : Car) : Prop where
  location : c.location = c.colors.length
  range : ∀ x ∈ c.colors, 0 ≤ x ∧ x ≤ 4
  info : c.data.package.additionalInfo = []
  /-- the slots of the circle in progress -/
  slots : ∀ j < c.colors.length, c.colors.length - c.colors.length % 4 ≤ j →
    c.data.package.cargoType (j % 4) = colorAt c.colors (j + 1)
  sent : c.sent = deliveryLog c.colors

theorem Delivered.quiet {c d : Car} (h : Delivered c) (hq : Quiet c d) : Delivered d := by
  obtain ⟨hl, hd, hs, hc⟩ := hq
  obtain ⟨h1, h2, h3, h4, h5⟩ := h
  constructor
  · rw [hl, hc, h1]
  · rw [hc]
    exact h2
  · rw [hd, h3]
  · rw [hc, hd]
    exact h4
  · rw [hs, hc, h5]

/-- The slot, the condition and the count of `autoTrack` on the visit number. -/
theorem visit_arith (n : Nat) : ((((n + 1 : Nat) : Int) - 1).tmod platformNum).toNat = n % 4 ∧
    (((n + 1 : Nat) : Int).tmod platformNum = 0 ↔ (n + 1) % 4 = 0) ∧
    ((n + 1 : Nat) : Int).tdiv platformNum = ((n + 1) / 4 : Nat) := by
  have h1 : (((n + 1 : Nat) : Int) - 1) = (n : Int) := by omega
  have h4 : ((platformNum : Nat) : Int) = 4 := rfl
  rw [h1, h4, Int.tmod_eq_emod_of_nonneg (by omega), Int.tmod_eq_emod_of_nonneg (by omega),
    Int.tdiv_eq_ediv_of_nonneg (by omega)]
  omega

section
variable {c a : Car} (h : Delivered c) (hl : a.location = c.location + 1) (hd : a.data = c.data)
  (hc : a.colors = c.colors ++ [a.color])
include h hl hd

theorem reported_cargoType (i : Nat) : a.reported.package.cargoType i =
    if i = c.colors.length % 4 then a.color else c.data.package.cargoType i := by
  have hn : a.location = ((c.colors.length + 1 : Nat) : Int) := by
    rw [hl, h.location]
    rfl
  have hset : a.reported.package.cargoType =
      (a.data.setCargo a.location a.color).package.cargoType := by
    unfold reported
    split <;> rfl
  rw [hset, hd, hn]
  simp only [BtData.setCargo, (visit_arith _).1, Function.update_apply]

include hc

/-- The slot of a visit of the circle in progress, the last one included. -/
theorem reported_slot {j : Nat} (hj : j < c.colors.length + 1)
    (hlo : c.colors.length - c.colors.length % 4 ≤ j) :
    a.reported.package.cargoType (j % 4) = colorAt a.colors (j + 1) := by
  -- the visits of one circle have distinct slots, so this one overwrites none of the others
  rw [reported_cargoType h hl hd, hc]
  by_cases hlast : j = c.colors.length
  · rw [if_pos (by rw [hlast]), hlast, colorAt_last]
  · rw [if_neg (by omega), h.slots j (by omega) hlo, colorAt_append (by omega) (by omega)]

/-- At the last visit of a circle all four slots hold its colours. -/
theorem reported_full (h4 : (c.colors.length + 1) % 4 = 0) {i : Nat} (hi : i < 4) :
    a.reported.package.cargoType i = colorAt a.colors (c.colors.length + 1 - (3 - i)) := by
  have hslot := reported_slot (j := c.colors.length - (3 - i)) h hl hd hc (by omega) (by omega)
  rw [show (c.colors.length - (3 - i)) % 4 = i by omega] at hslot
  rw [hslot, show c.colors.length - (3 - i) + 1 = c.colors.length + 1 - (3 - i) by omega]

theorem messages_eq : a.messages = visitMessages a.colors (c.colors.length + 1) := by
  have hn : a.location = ((c.colors.length + 1 : Nat) : Int) := by
    rw [hl, h.location]
    rfl
  obtain ⟨-, hfull, hcount⟩ := visit_arith c.colors.length
  unfold messages visitMessages
  by_cases h4 : (c.colors.length + 1) % 4 = 0
  · rw [hn, if_pos (hfull.2 h4), if_pos h4]
    have hinfo : a.reported.package.additionalInfo = [] := by
      unfold reported
      rw [hd]
      split <;> exact h.info
    have hcnt : a.reported.package.count = ((c.colors.length + 1) / 4 : Nat) := by
      unfold reported
      rw [hn, if_pos (hfull.2 h4), ← hcount]
      rfl
    have hslot := fun i hi => reported_full (i := i) h hl hd hc h4 hi
    simp only [BtData.encode, hinfo, hcnt, hslot 0 (by decide), hslot 1 (by decide),
      hslot 2 (by decide), hslot 3 (by decide), packageLine]
    simp
  · rw [hn, if_neg fun h => h4 (hfull.1 h), if_neg h4]

end

/-- A platform stop delivers the reading of its visit. -/
theorem Delivered.report {c a : Car} (h : Delivered c) (hl : a.location = c.location + 1)
    (hd : a.data = c.data) (hs : a.sent = c.sent) (hc : a.colors = c.colors ++ [a.color])
    (hr : 0 ≤ a.color ∧ a.color ≤ 4) : Delivered a.report := by
  have hlen : a.colors.length = c.colors.length + 1 := by simp [hc]
  have hdata : a.report.data = a.reported := by rw [report_eq]
  constructor
  · rw [report_colors, hlen, report_eq, hl, h.location]
    rfl
  · rw [report_colors, hc]
    intro x hx
    rcases List.mem_append.1 hx with hx | hx
    · exact h.range x hx
    · rw [List.mem_singleton.1 hx]
      exact hr
  · rw [hdata]
    unfold reported
    rw [hd]
    split <;> exact h.info
  · rw [report_colors, hdata, hlen]
    exact fun j hj hlo => reported_slot h hl hd hc hj (by omega)
  · rw [report_sent, report_colors, hs, h.sent, messages_eq h hl hd hc]
    conv_rhs => rw [hc, deliveryLog_concat, ← hc]

/-- A platform reads one of the five colours. -/
theorem arrive_color (inp : Inputs) (c : Car) : ∃ x, getRGB inp.rawBuff c.blankRGB = some x ∧
    (c.arrive inp).color = x ∧ 0 ≤ x ∧ x ≤ 4 := by
  obtain ⟨x, hx, hr⟩ := getRGB_spec inp.rawBuff c.blankRGB
  refine ⟨x, hx, ?_, hr⟩
  show (getRGB inp.rawBuff c.blankRGB).getD inp.undef = x
  rw [hx]
  rfl

theorem Delivered.step {c : Car} (h : Delivered c) (inp : Inputs) : Delivered (c.step inp) := by
  by_cases hp : c.control = .tracking ∧ c.status inp = .platform
  · rw [step_tracking hp.1, trackingLoop_eq, sensed_status, hp.2]
    have hq := h.quiet (quiet_sensed inp c)
    generalize (c.sensed inp).1 = d at hq ⊢
    have hd : Delivered { d with boardLed := true } := hq.quiet ⟨rfl, rfl, rfl, rfl⟩
    obtain ⟨x, -, hcolor, hr⟩ := arrive_color inp { d with boardLed := true }
    refine Delivered.quiet (hd.report (arrive_location inp _) (arrive_data inp _)
      (arrive_sent inp _) (arrive_colors inp _) ?_) (quiet_platformStop inp _ _)
    rw [hcolor]
    exact hr
  · exact h.quiet (step_quiet hp)

theorem step_blankRGB (inp : Inputs) (c : Car) : (c.step inp).blankRGB = c.blankRGB := by
  unfold step
  cases c.control with
  | btMode =>
    obtain ⟨b, h | h⟩ := btLoop_cases inp c
    · rw [h]
    · rw [h]
      rfl
  | discarding => rfl
  | leaving =>
    show (c.awaitTrack inp).blankRGB = c.blankRGB
    by_cases h : c.status inp = .normal
    · rw [awaitTrack_normal h]
      rfl
    · rw [awaitTrack_other h]
      rfl
  | halted => rfl
  | tracking =>
    rw [← sensed_blankRGB inp c]
    show (c.trackingLoop inp).blankRGB = _
    rw [trackingLoop_eq]
    cases (c.sensed inp).2.2 with
    | normal => rfl
    | noTrack => rfl
    | platform =>
      rw [react, platformStop, report_eq]
      rfl

/-- The colour `getRGB` gives at a visit: a step of the tracking loop that finds a platform. -/
def visit (c : Car) (inp : Inputs) : Option Int :=
  if c.control = .tracking ∧ c.status inp = .platform then getRGB inp.rawBuff c.blankRGB else none

/-- A visit reads one colour, every other step none. -/
theorem step_visit (inp : Inputs) (c : Car) :
    (c.step inp).colors = c.colors ++ (c.visit inp).toList := by
  unfold visit
  by_cases hp : c.control = .tracking ∧ c.status inp = .platform
  · rw [if_pos hp, ← sensed_blankRGB inp c, step_tracking hp.1, trackingLoop_eq, sensed_status,
      hp.2]
    have hcolors := (quiet_sensed inp c).colors
    generalize (c.sensed inp).1 = d at hcolors ⊢
    obtain ⟨x, hx, hcolor, -⟩ := arrive_color inp { d with boardLed := true }
    show (platformStop (motorAimSpeed inp) inp { d with boardLed := true }).colors = _
    rw [(quiet_platformStop inp _ _).colors, report_colors, arrive_colors, hcolor, hx,
      ← hcolors]
    rfl
  · rw [if_neg hp, (step_quiet hp).colors]
    exact (List.append_nil _).symm

/-- From any state the colours of a run are those of its visits. -/
theorem colors_run {M : Machine Car Inputs} (hM : M.step = step) (c : Car) (is : List Inputs) :
    (M.runFrom c is).colors = c.colors ++ M.labelsFrom visit c is := by
  induction is generalizing c with
  | nil => exact (List.append_nil _).symm
  | cons inp is ih =>
    rw [Machine.runFrom_cons, Machine.labelsFrom, ih, hM, step_visit, List.append_assoc]

theorem quiet_prepareCCD (frames : Nat → Frame × Frame) (c : Car) :
    Quiet c (c.prepareCCD frames).1 :=
  .of_append _ rfl rfl rfl
    (by rw [List.filterMap_append, calibrationEvents_silent fun _ _ => rfl]; rfl)
    (by rw [List.filterMap_append, calibrationEvents_silent fun _ _ => rfl]; rfl)

theorem quiet_setupBlankColor (blankBuff : RawBuff) (c : Car) :
    Quiet c (c.setupBlankColor blankBuff) :=
  .of_append ([.delay 400] ++ getColorDelays ++ [.delay 100] ++ getColorDelays ++
    [.delay 1000]) rfl rfl rfl rfl rfl

theorem quiet_calibrate (p : Prelude) : Quiet (setup p.bestRecord) (calibrate p).1 :=
  (quiet_setupBlankColor p.blankBuff _).trans (quiet_prepareCCD p.frames _)

theorem calibrate_blankRGB (p : Prelude) : (calibrate p).1.blankRGB = getColor p.blankBuff := by
  unfold calibrate prepareCCD
  rfl

theorem quiet_enterTracking (bestRecord : ExplosureRecord) (c : Car) :
    Quiet c { c with bestRecord := bestRecord }.enterTracking :=
  .of_append [.delay 1000] rfl rfl rfl rfl rfl

theorem delivered_setup (bestRecord : ExplosureRecord) : Delivered (setup bestRecord) where
  location := rfl
  range := by simp [colors, setup]
  info := rfl
  slots := by simp [colors, setup]
  sent := rfl

/-- Nothing is sent or read before the tracking loop. -/
theorem quiet_init (p : Prelude) (bestRecord : ExplosureRecord) :
    Quiet (setup p.bestRecord) (trackingMachine p bestRecord).init :=
  (quiet_calibrate p).trans (quiet_enterTracking bestRecord _)

theorem delivered_init (p : Prelude) (bestRecord : ExplosureRecord) :
    Delivered (trackingMachine p bestRecord).init :=
  (delivered_setup p.bestRecord).quiet (quiet_init p bestRecord)

end Car

theorem delivered_run (p : Prelude) (bestRecord : ExplosureRecord) (is : List Inputs) :
    ((trackingMachine p bestRecord).run is).Delivered :=
  Machine.run_invariant (M := trackingMachine p bestRecord) (P := Car.Delivered)
    (Car.delivered_init p bestRecord) (fun _ inp h => Car.Delivered.step h inp) is

/-! ## The uploader -/

namespace Uploader

/-- The number in the id and the name of the good for visit `j`. -/
def goodNumber (j : Nat) : Nat := 10 * ((j - 1) / 4 + 1) + (j - 1) % 4

theorem goodNumber_inj {i j : Nat} (hi : 1 ≤ i) (hj : 1 ≤ j) (h : goodNumber i = goodNumber j) :
    i = j := by
  unfold goodNumber at h
  omega

section
variable (rnd : Random) (colors : List Int)

/-- The good for visit `j`. -/
def goodAt (j : Nat) : Good where
  id := showInt (goodNumber j)
  goodID := letter rnd ++ Python.zfill (showInt (goodNumber j)) 4
  goodName := good_names.getD (rnd.goodName (j - 1)) []
  position := showInt ((j - 1) % 4 : Nat)
  type := Uploader.colors.getD (colorAt colors j).toNat []
  robotID := "001".toList

def goods (n : Nat) : List Good := (List.range' 1 n).map (goodAt rnd colors)

@[simp] theorem length_goods (n : Nat) : (goods rnd colors n).length = n := by simp [goods]

theorem goods_append {n : Nat} (h : n ≤ colors.length) (c : Int) :
    goods rnd (colors ++ [c]) n = goods rnd colors n := by
  refine List.map_congr_left fun j hj => ?_
  obtain ⟨h1, h2⟩ := List.mem_range'_1.1 hj
  rw [goodAt, colorAt_append h1 (by omega), ← goodAt]

theorem goods_add (m n : Nat) : goods rnd colors (m + n) =
    goods rnd colors m ++ (List.range' (m + 1) n).map (goodAt rnd colors) := by
  rw [goods, ← List.range'_append_1, List.map_append, Nat.add_comm 1 m]
  rfl

theorem nodup_id (n : Nat) : ((goods rnd colors n).map Good.id).Nodup := by
  rw [goods, List.map_map]
  refine List.Nodup.map_on (fun i hi j hj h => ?_) List.nodup_range'
  have hnum : ((goodNumber i : Nat) : Int) = (goodNumber j : Nat) := Python.showInt_injective h
  exact goodNumber_inj (List.mem_range'_1.1 hi).1 (List.mem_range'_1.1 hj).1
    (by exact_mod_cast hnum)

theorem nodup_goodID (n : Nat) : ((goods rnd colors n).map Good.goodID).Nodup := by
  rw [goods, List.map_map]
  refine List.Nodup.map_on (fun i hi j hj h => ?_) List.nodup_range'
  have hz := congrArg Python.int (List.append_cancel_left h)
  rw [Python.int_zfill_showInt, Python.int_zfill_showInt, Option.some.injEq] at hz
  exact goodNumber_inj (List.mem_range'_1.1 hi).1 (List.mem_range'_1.1 hj).1 (by exact_mod_cast hz)

end

theorem index_colors {c : Int} (h : 0 ≤ c ∧ c ≤ 4) :
    Python.index colors c = some (colors.getD c.toNat []) := by
  obtain ⟨h0, h4⟩ := h
  interval_cases c <;> rfl

theorem colorAt_mem {colors : List Int} (h : ∀ x ∈ colors, 0 ≤ x ∧ x ≤ 4) (j : Nat) :
    0 ≤ colorAt colors j ∧ colorAt colors j ≤ 4 := by
  unfold colorAt
  by_cases hj : j - 1 < colors.length
  · rw [List.getD_eq_getElem _ _ hj]
    exact h _ (List.getElem_mem hj)
  · rw [List.getD_eq_default _ _ (by omega)]
    decide

section
variable (rnd : Random) {colors : List Int} (h : ∀ x ∈ colors, 0 ≤ x ∧ x ≤ 4)
include h

/-- The loop over the slots of circle `k + 1`, from slot `i`, appends the goods of its visits. -/
theorem appendCargo_eq (k n : Nat) : ∀ (i : Nat) (xml : List Good), xml.length = 4 * k + i →
    i + n ≤ 4 → appendCargo rnd (k + 1 : Nat) i
      ((List.range' (xml.length + 1) n).map (colorAt colors)) xml =
        ⟨xml ++ (List.range' (xml.length + 1) n).map (goodAt rnd colors), none⟩ := by
  induction n with
  | zero =>
    intro i xml _ _
    simp [appendCargo]
  | succ n ih =>
    intro i xml hlen hle
    have hnum : ((k + 1 : Nat) : Int) * 10 + i = (goodNumber (xml.length + 1) : Nat) := by
      unfold goodNumber
      omega
    have hpos : ((i : Nat) : Int) = ((xml.length + 1 - 1) % 4 : Nat) := by omega
    rw [List.range'_succ, List.map_cons, List.map_cons, appendCargo,
      index_colors (colorAt_mem h _), hnum]
    have hgood : append_xml (showInt (goodNumber (xml.length + 1) : Nat))
        (letter rnd ++ Python.zfill (showInt (goodNumber (xml.length + 1) : Nat)) 4)
        (good_names.getD (rnd.goodName xml.length) []) (showInt (i : Nat))
        (Uploader.colors.getD (colorAt colors (xml.length + 1)).toNat []) "001".toList xml =
        xml ++ [goodAt rnd colors (xml.length + 1)] := by
      rw [hpos]
      rfl
    dsimp only
    rw [hgood]
    have := ih (i + 1) (xml ++ [goodAt rnd colors (xml.length + 1)]) (by simp; omega) (by omega)
    simpa using this

end

/-! ## The lines of the log -/

/-- The package with the given values and an empty text. -/
def package (count c0 c1 c2 c3 : Int) : BtData :=
  ⟨{ count := count
     cargoType := fun i => [c0, c1, c2, c3].getD i 0
     additionalInfo := [] }⟩

theorem packageLine_eq (count c0 c1 c2 c3 : Int) :
    packageLine [count, c0, c1, c2, c3] = (package count c0 c1 c2 c3).encode := by
  simp [packageLine, package, BtData.encode]

theorem receive_packageLine (rnd : Random) (count c0 c1 c2 c3 : Int) (xml : List Good) :
    receive rnd (println (packageLine [count, c0, c1, c2, c3])) xml =
      appendCargo rnd count 0 [c0, c1, c2, c3] xml := by
  rw [packageLine_eq]
  exact receive_encode rnd xml List.not_mem_nil

/-- The messages of the log contain no line break. -/
theorem not_mem_deliveryLog {colors : List Int} {m : Text} (hm : m ∈ deliveryLog colors) :
    '\n' ∉ m ++ ['\r'] := by
  obtain ⟨j, -, hj⟩ := List.mem_flatMap.1 hm
  rcases List.mem_cons.1 hj with rfl | hj
  · decide
  · split at hj
    · rw [List.mem_singleton.1 hj, packageLine_eq]
      simpa using BtData.newline_not_mem_encode List.not_mem_nil
    · cases hj

/-- The lines of the printed log are its messages. -/
theorem readlines_log (colors : List Int) :
    Python.readlines ((deliveryLog colors).flatMap println) =
      (deliveryLog colors).map println := by
  have hsplit := Python.readlines_flatMap (fun m : Text => m ++ ['\r'])
    fun m (hm : m ∈ deliveryLog colors) => not_mem_deliveryLog hm
  simp only [List.append_assoc] at hsplit
  exact hsplit

/-- The messages of one visit, after the goods of the circles completed before it. -/
theorem receive_visit (rnd : Random) {colors : List Int} (h : ∀ x ∈ colors, 0 ≤ x ∧ x ≤ 4)
    (n : Nat) :
    (machine rnd).runFrom ⟨goods rnd colors (4 * (n / 4)), none⟩
        ((visitMessages colors (n + 1)).map println) =
      ⟨goods rnd colors (4 * ((n + 1) / 4)), none⟩ := by
  unfold visitMessages
  rw [List.map_cons, Machine.runFrom_cons]
  have hstep : ∀ (xml : List Good) (line : Text), (machine rnd).step ⟨xml, none⟩ line =
      receive rnd line xml := fun _ _ => rfl
  rw [hstep, receive_platformReached]
  by_cases h4 : (n + 1) % 4 = 0
  · rw [if_pos h4, List.map_singleton, Machine.runFrom_cons, Machine.runFrom_nil, hstep,
      receive_packageLine]
    -- the package holds the colours of the four visits of circle n / 4 + 1
    have happ := appendCargo_eq rnd h (n / 4) 4 0 (goods rnd colors (4 * (n / 4)))
      (by simp) (by omega)
    have hcargo : [colorAt colors (n + 1 - 3), colorAt colors (n + 1 - 2),
        colorAt colors (n + 1 - 1), colorAt colors (n + 1)] =
        (List.range' (4 * (n / 4) + 1) 4).map (colorAt colors) := by
      simp only [List.range'_succ, List.range'_zero, List.map_cons, List.map_nil]
      rw [show n + 1 - 3 = 4 * (n / 4) + 1 by omega, show n + 1 - 2 = 4 * (n / 4) + 1 + 1 by omega,
        show n + 1 - 1 = 4 * (n / 4) + 1 + 1 + 1 by omega,
        show n + 1 = 4 * (n / 4) + 1 + 1 + 1 + 1 by omega]
    rw [length_goods] at happ
    rw [hcargo, show (n + 1) / 4 = n / 4 + 1 by omega, Nat.mul_add, goods_add]
    exact happ
  · rw [if_neg h4, List.map_nil, Machine.runFrom_nil, show (n + 1) / 4 = n / 4 by omega]

/-- The uploader on the log: it never raises, and holds the goods of the completed circles. -/
theorem reader_run (rnd : Random) {colors : List Int} (h : ∀ x ∈ colors, 0 ≤ x ∧ x ≤ 4) :
    (machine rnd).run ((deliveryLog colors).map println) =
      ⟨goods rnd colors (4 * (colors.length / 4)), none⟩ := by
  induction colors using List.reverseRecOn with
  | nil => rfl
  | append_singleton colors c ih =>
    have ih := ih fun x hx => h x (List.mem_append_left _ hx)
    rw [deliveryLog_concat, List.map_append, Machine.run_append, ih,
      ← goods_append rnd colors (by omega) c, receive_visit rnd h, List.length_append]
    rfl

end Uploader

theorem Car.visits_run (p : Prelude) (bestRecord : ExplosureRecord) (is : List Inputs) :
    ((trackingMachine p bestRecord).run is).colors =
      (trackingMachine p bestRecord).labels visit is := by
  have hrun := colors_run (M := trackingMachine p bestRecord) rfl
    (trackingMachine p bestRecord).init is
  rw [(quiet_init p bestRecord).colors] at hrun
  exact hrun

/-- **End-to-end delivery.** In every run of the tracking loop the colours are those read at the
visits, one per platform, and the log is that of these colours; read line by line, it makes the
uploader raise nothing and leaves exactly the goods of the completed circles, in the order of the
visits, with distinct ids and names. -/
theorem delivery (p : Prelude) (bestRecord : ExplosureRecord) (is : List Inputs)
    (rnd : Uploader.Random) :
    let c := (trackingMachine p bestRecord).run is
    let r := (Uploader.machine rnd).run (Python.readlines (c.sent.flatMap println))
    c.colors = (trackingMachine p bestRecord).labels Car.visit is ∧
      c.location = c.colors.length ∧ (∀ x ∈ c.colors, 0 ≤ x ∧ x ≤ 4) ∧
      c.sent = deliveryLog c.colors ∧
      r.raised = none ∧ r.xml = Uploader.goods rnd c.colors (4 * (c.colors.length / 4)) ∧
      (r.xml.map Good.id).Nodup ∧ (r.xml.map Good.goodID).Nodup := by
  intro c r
  have hc : c.Delivered := delivered_run p bestRecord is
  have hr : r = ⟨Uploader.goods rnd c.colors (4 * (c.colors.length / 4)), none⟩ := by
    show (Uploader.machine rnd).run (Python.readlines (c.sent.flatMap println)) = _
    rw [hc.sent, Uploader.readlines_log]
    exact Uploader.reader_run rnd hc.range
  rw [hr]
  exact ⟨Car.visits_run p bestRecord is, hc.location, hc.range, hc.sent, rfl, rfl,
    Uploader.nodup_id rnd _ _, Uploader.nodup_goodID rnd _ _⟩

end BuptCar
