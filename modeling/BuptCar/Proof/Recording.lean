import BuptCar.Uploader.SerialReader
import Mathlib.Data.List.TakeWhile

/-!
# Recording a package

All numbers of a line are converted before the first good is written, but its colour codes are
looked up one by one between the writes. So the file gains the goods in front of the first code that
is no subscript of `colors` (`appendCargo_xml`): all four or none exactly if the first code is no
subscript, or all are (`recording_iff`).
-/

namespace BuptCar.Uploader

/-! ## What a line reads as -/

/-- The count and the colour codes of a line; none where it is a notice or raises `ValueError`. -/
def unpack (r : Text) : Option (Int × List Int) :=
  if r = "Platform Reached\r\n".toList then none
  else match r.splitOn ',' with
    | [count, cargo0, cargo1, cargo2, cargo3, _] =>
      match Python.int count, [cargo0, cargo1, cargo2, cargo3].mapM Python.int with
      | some count, some cargo => some (count, cargo)
      | _, _ => none
    | _ => none

theorem mapM_int_length {fields : List Text} {cargo : List Int}
    (h : fields.mapM Python.int = some cargo) : cargo.length = fields.length := by
  induction fields generalizing cargo with
  | nil =>
    cases h
    rfl
  | cons f fields ih =>
    simp only [List.mapM_cons, Option.pure_def, Option.bind_eq_bind, Option.bind_eq_some_iff,
      Option.some.injEq] at h
    obtain ⟨_, -, _, hrest, rfl⟩ := h
    exact congrArg (· + 1) (ih hrest)

theorem unpack_eq_some_iff {r : Text} {count : Int} {cargo : List Int} :
    unpack r = some (count, cargo) ↔ r ≠ "Platform Reached\r\n".toList ∧
      ∃ f0 f1 f2 f3 f4 f5, r.splitOn ',' = [f0, f1, f2, f3, f4, f5] ∧
        Python.int f0 = some count ∧ [f1, f2, f3, f4].mapM Python.int = some cargo := by
  refine ⟨fun h => ?_, fun h => ?_⟩
  · unfold unpack at h
    split at h
    · cases h
    · rename_i hr
      split at h
      · rename_i f0 f1 f2 f3 f4 f5 hfields
        split at h
        · rename_i hcount hcargo
          cases h
          exact ⟨hr, f0, f1, f2, f3, f4, f5, hfields, hcount, hcargo⟩
        · cases h
      · cases h
  · obtain ⟨hr, f0, f1, f2, f3, f4, f5, hfields, hcount, hcargo⟩ := h
    rw [unpack, if_neg hr, hfields]
    simp only [hcount, hcargo]

section
variable (rnd : Random)

/-- For a line with four codes the loop runs over them. -/
theorem receive_unpacked {r : Text} {count : Int} {cargo : List Int}
    (h : unpack r = some (count, cargo)) (xml : List Good) : cargo.length = 4 ∧
      receive rnd r xml = appendCargo rnd count 0 cargo xml := by
  obtain ⟨hr, f0, f1, f2, f3, f4, f5, hfields, hcount, hcargo⟩ := unpack_eq_some_iff.1 h
  refine ⟨mapM_int_length hcargo, ?_⟩
  rw [receive, if_neg hr, hfields]
  simp only [hcount, hcargo]

theorem receive_rejected {r : Text} (h : unpack r = none) (xml : List Good) :
    (receive rnd r xml).xml = xml := by
  unfold receive
  split
  · rfl
  · rename_i hr
    split
    · rename_i f0 f1 f2 f3 f4 f5 hfields
      split
      · rename_i hcount hcargo
        have hsome := unpack_eq_some_iff.2 ⟨hr, f0, f1, f2, f3, f4, f5, hfields, hcount, hcargo⟩
        rw [h] at hsome
        cases hsome
      · rfl
    · rfl

/-! ## The goods of a package -/

/-- A code that `colors` has a name for. -/
def IsColor (c : Int) : Prop := -5 ≤ c ∧ c < 5

instance (c : Int) : Decidable (IsColor c) := inferInstanceAs (Decidable (_ ∧ _))

theorem index_of_isColor {c : Int} (h : IsColor c) : ∃ type, Python.index colors c = some type :=
  Option.isSome_iff_exists.1 ((Python.index_isSome colors c).2 h)

theorem index_of_not_isColor {c : Int} (h : ¬IsColor c) : Python.index colors c = none := by
  rw [← Option.not_isSome_iff_eq_none, Python.index_isSome]
  exact h

/-- Good `i` of a package with the colour code `c`, behind `written` goods. -/
def good (count : Int) (i written : Nat) (c : Int) : Good where
  id := showInt (count * 10 + i)
  goodID := letter rnd ++ Python.zfill (showInt (count * 10 + i)) 4
  goodName := good_names.getD (rnd.goodName written) []
  position := showInt i
  type := (Python.index colors c).getD []
  robotID := "001".toList

/-- The goods of a package from `i` on. -/
def packageGoods (count : Int) : Nat → Nat → List Int → List Good
  | _, _, [] => []
  | i, written, c :: cargo => good rnd count i written c ::
      packageGoods count (i + 1) (written + 1) cargo

theorem length_packageGoods (count : Int) (i written : Nat) (cargo : List Int) :
    (packageGoods rnd count i written cargo).length = cargo.length := by
  induction cargo generalizing i written with
  | nil => rfl
  | cons c cargo ih => exact congrArg (· + 1) (ih _ _)

/-- The loop writes the goods in front of the first code without a name. -/
theorem appendCargo_xml (count : Int) (i : Nat) (cargo : List Int) (xml : List Good) :
    (appendCargo rnd count i cargo xml).xml =
      xml ++ packageGoods rnd count i xml.length (cargo.takeWhile fun c => IsColor c) := by
  induction cargo generalizing i xml with
  | nil => exact (List.append_nil xml).symm
  | cons c cargo ih =>
    rw [appendCargo]
    by_cases hc : IsColor c
    · obtain ⟨type, htype⟩ := index_of_isColor hc
      rw [List.takeWhile_cons_of_pos (by simpa using hc), packageGoods, htype]
      have hgood : good rnd count i xml.length c = ⟨showInt (count * 10 + i),
          letter rnd ++ Python.zfill (showInt (count * 10 + i)) 4,
          good_names.getD (rnd.goodName xml.length) [], showInt i, type, "001".toList⟩ := by
        rw [good, htype]
        rfl
      dsimp only
      rw [ih, append_xml, hgood, List.length_append, List.append_assoc]
      rfl
    · rw [List.takeWhile_cons_of_neg (by simpa using hc), index_of_not_isColor hc]
      exact (List.append_nil xml).symm

/-- The file has gained nothing of the line `r`, or the goods of all its four codes. -/
def AllOrNothing (r : Text) (xml : List Good) : Prop :=
  (receive rnd r xml).xml = xml ∨
  ∃ count cargo, unpack r = some (count, cargo) ∧ cargo.length = 4 ∧
    (receive rnd r xml).xml = xml ++ packageGoods rnd count 0 xml.length cargo

/-- Where the first colour code of a line has a name, the other ones have. -/
def Recordable (r : Text) : Prop :=
  ∀ count c0 cargo, unpack r = some (count, c0 :: cargo) → IsColor c0 → ∀ c ∈ cargo, IsColor c

theorem recordable_of_rejected {r : Text} (h : unpack r = none) : Recordable r := by
  intro count c0 cargo hsome
  rw [h] at hsome
  cases hsome

/-- The goods written in front of the first code without a name are none or four. -/
theorem allOrNothing_unpack {r : Text} {count : Int} {cargo : List Int}
    (h : unpack r = some (count, cargo)) (xml : List Good) : AllOrNothing rnd r xml ↔
      (cargo.takeWhile fun c => IsColor c) = [] ∨ (cargo.takeWhile fun c => IsColor c) = cargo := by
  obtain ⟨hlen, hr⟩ := receive_unpacked rnd h xml
  unfold AllOrNothing
  rw [hr, appendCargo_xml]
  -- how many goods are gained says how far the loop came
  constructor
  · rintro (hnone | ⟨count', cargo', h', -, hall⟩)
    · have hnil := congrArg List.length (List.append_right_eq_self.1 hnone)
      rw [length_packageGoods] at hnil
      exact .inl (List.length_eq_zero_iff.1 hnil)
    · rw [h] at h'
      cases h'
      have heq := congrArg List.length (List.append_cancel_left hall)
      rw [length_packageGoods, length_packageGoods] at heq
      exact .inr ((List.takeWhile_prefix _).eq_of_length heq)
  · rintro (hnil | hall)
    · rw [hnil]
      exact .inl (List.append_nil xml)
    · rw [hall]
      exact .inr ⟨count, cargo, h, hlen, rfl⟩

theorem recordable_unpack {r : Text} {count : Int} {cargo : List Int}
    (h : unpack r = some (count, cargo)) : Recordable r ↔
      (cargo.takeWhile fun c => IsColor c) = [] ∨ (cargo.takeWhile fun c => IsColor c) = cargo := by
  cases cargo with
  | nil =>
    refine iff_of_true (fun _ _ _ h' => ?_) (.inl rfl)
    rw [h] at h'
    cases h'
  | cons c0 cargo =>
    by_cases h0 : IsColor c0
    · rw [List.takeWhile_cons_of_pos (by simpa using h0), List.cons.injEq,
        List.takeWhile_eq_self_iff]
      refine ⟨fun hrec => .inr ⟨rfl, fun c hc => ?_⟩, fun hw count' c0' cargo' h' _ c hc => ?_⟩
      · exact decide_eq_true (hrec count c0 cargo h h0 c hc)
      · rcases hw with hnil | ⟨-, hall⟩
        · cases hnil
        · rw [h] at h'
          cases h'
          exact of_decide_eq_true (hall c hc)
    · rw [List.takeWhile_cons_of_neg (by simpa using h0)]
      refine iff_of_true (fun count' c0' cargo' h' h0' => ?_) (.inl rfl)
      rw [h] at h'
      cases h'
      exact absurd h0' h0

theorem allOrNothing_iff (r : Text) (xml : List Good) :
    AllOrNothing rnd r xml ↔ Recordable r := by
  cases h : unpack r with
  | none => exact iff_of_true (.inl (receive_rejected rnd h xml)) (recordable_of_rejected h)
  | some package =>
    obtain ⟨count, cargo⟩ := package
    exact (allOrNothing_unpack rnd h xml).trans (recordable_unpack h).symm

theorem AllOrNothing.length {r : Text} {xml : List Good} (h : AllOrNothing rnd r xml)
    (hxml : 4 ∣ xml.length) : 4 ∣ (receive rnd r xml).xml.length := by
  rcases h with h | ⟨count, cargo, -, hlen, h⟩
  · rwa [h]
  · rw [h, List.length_append, length_packageGoods, hlen]
    exact (Nat.dvd_add_self_right).2 hxml

/-- After any run over lines that are recorded as a whole the file holds whole packages. -/
theorem whole_run {lines : List Text} (h : ∀ r ∈ lines, Recordable r) :
    4 ∣ ((machine rnd).run lines).xml.length := by
  have hstep : ∀ (s : Reader), ∀ r ∈ lines, 4 ∣ s.xml.length → 4 ∣ (step rnd s r).xml.length := by
    intro s r hr hs
    unfold step
    split
    · exact hs
    · exact ((allOrNothing_iff rnd r s.xml).2 (h r hr)).length rnd hs
  exact Machine.runFrom_invariant_mem (M := machine rnd) (Nat.dvd_zero 4) hstep

/-- **All-or-nothing recording.** After a line the file has gained all its four goods or none exactly
if its other colour codes are subscripts of `colors` where the first one is. A run over such lines
leaves whole packages. -/
theorem recording_iff :
    (∀ r xml, AllOrNothing rnd r xml ↔ Recordable r) ∧
    ∀ lines : List Text, (∀ r ∈ lines, Recordable r) →
      4 ∣ ((machine rnd).run lines).xml.length :=
  ⟨allOrNothing_iff rnd, fun _ => whole_run rnd⟩

end

/-- A package whose second colour code is out of range leaves one good behind. -/
theorem half_recorded : ¬∀ (rnd : Random) (r : Text) (xml : List Good), AllOrNothing rnd r xml := by
  intro h
  have hlen : (receive ⟨0, fun _ => 0⟩ "1,0,9,0,0,\r\n".toList []).xml.length = 1 := by decide
  rcases h ⟨0, fun _ => 0⟩ "1,0,9,0,0,\r\n".toList [] with hnone | ⟨count, cargo, -, h4, hall⟩
  · rw [hnone] at hlen
    cases hlen
  · rw [hall, List.length_append, length_packageGoods, h4] at hlen
    cases hlen

end BuptCar.Uploader
