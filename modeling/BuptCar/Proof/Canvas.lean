import BuptCar.Proof.Pixels
import BuptCar.Lib.Pen

/-!
# The screen as the program sees it

The program addresses pixels in the rotated coordinates and reads them with `getPixel`.
`d.Draws pen d'`: the pixels of the screen change as `pen` says, and nothing else of the display
changes, the padding of the last page included. This determines the display (`Draws.unique`).
-/

namespace BuptCar

namespace Display

variable {d d' d'' : Display} {x y u v : Int} {color : Nat}

theorem getPixel_eq (h : d.inBounds x y) : d.getPixel x y =
    d.buffer.pixel d.WIDTH (d.rotate x y).1.toNat (d.rotate x y).2.toNat := by
  unfold getPixel
  rw [if_pos h]
  exact bit_test _ (Nat.mod_lt _ (by decide))

/-! ## Rotations -/

/-- The screen under each rotation; any other value than 1, 2 and 3 is none. -/
theorem turned (d : Display) :
    (d.rotation = 1 ∧ d.width = d.HEIGHT ∧ d.height = d.WIDTH ∧
      ∀ x y, d.rotate x y = (d.WIDTH - y - 1, x)) ∨
    (d.rotation = 2 ∧ d.width = d.WIDTH ∧ d.height = d.HEIGHT ∧
      ∀ x y, d.rotate x y = (d.WIDTH - x - 1, d.HEIGHT - y - 1)) ∨
    (d.rotation = 3 ∧ d.width = d.HEIGHT ∧ d.height = d.WIDTH ∧
      ∀ x y, d.rotate x y = (y, d.HEIGHT - x - 1)) ∨
    ((d.rotation ≠ 1 ∧ d.rotation ≠ 2 ∧ d.rotation ≠ 3) ∧ d.width = d.WIDTH ∧
      d.height = d.HEIGHT ∧ ∀ x y, d.rotate x y = (x, y)) := by
  unfold width height rotate
  by_cases h1 : d.rotation = 1
  · simp [h1]
  · by_cases h2 : d.rotation = 2
    · simp [h2]
    · by_cases h3 : d.rotation = 3
      · simp [h3]
      · simp [h1, h2, h3]

theorem rotate_bounds (h : d.inBounds x y) :
    (0 ≤ (d.rotate x y).1 ∧ (d.rotate x y).1 < d.WIDTH) ∧
      0 ≤ (d.rotate x y).2 ∧ (d.rotate x y).2 < d.HEIGHT := by
  unfold inBounds at h
  obtain ⟨-, hw, hh, hr⟩ | ⟨-, hw, hh, hr⟩ | ⟨-, hw, hh, hr⟩ | ⟨-, hw, hh, hr⟩ := d.turned <;>
    rw [hr] <;> omega

theorem rotate_inj (heq : d.rotate x y = d.rotate u v) : x = u ∧ y = v := by
  obtain ⟨-, -, -, hr⟩ | ⟨-, -, -, hr⟩ | ⟨-, -, -, hr⟩ | ⟨-, -, -, hr⟩ := d.turned <;>
    rw [hr, hr, Prod.mk.injEq] at heq <;> omega

/-- Every pixel of the buffer is one of the screen. -/
theorem rotate_surj (d : Display) {p q : Nat} (hp : p < d.WIDTH) (hq : q < d.HEIGHT) :
    ∃ x y, d.inBounds x y ∧ d.rotate x y = (↑p, ↑q) := by
  unfold inBounds
  obtain ⟨-, hw, hh, hr⟩ | ⟨-, hw, hh, hr⟩ | ⟨-, hw, hh, hr⟩ | ⟨-, hw, hh, hr⟩ := d.turned
  · exact ⟨q, d.WIDTH - 1 - p, by omega, by rw [hr, Prod.mk.injEq]; omega⟩
  · exact ⟨d.WIDTH - 1 - p, d.HEIGHT - 1 - q, by omega, by rw [hr, Prod.mk.injEq]; omega⟩
  · exact ⟨d.HEIGHT - 1 - q, p, by omega, by rw [hr, Prod.mk.injEq]; omega⟩
  · exact ⟨p, q, by omega, by rw [hr]⟩

/-! ## Drawing -/

structure Draws (d : Display) (pen : Pen (Int × Int) Bool) (d' : Display) : Prop where
  same : d' = { d with buffer := d'.buffer }
  pixel : ∀ u v, d.inBounds u v → d'.getPixel u v = pen (u, v) (d.getPixel u v)
  rest : ∀ p < d.WIDTH, ∀ q, d.HEIGHT ≤ q →
    d'.buffer.pixel d.WIDTH p q = d.buffer.pixel d.WIDTH p q

namespace Draws

variable {pen pen' : Pen (Int × Int) Bool}

theorem nothing (d : Display) (h : ∀ u v, d.inBounds u v → ∀ b, pen (u, v) b = b) :
    d.Draws pen d := ⟨rfl, fun u v hin => (h u v hin _).symm, fun _ _ _ _ => rfl⟩

theorem congr (h : d.Draws pen d')
    (hpen : ∀ u v, d.inBounds u v → ∀ b, pen (u, v) b = pen' (u, v) b) : d.Draws pen' d' :=
  ⟨h.same, fun u v hin => (h.pixel u v hin).trans (hpen u v hin _), h.rest⟩

theorem inBounds_iff (h : d.Draws pen d') : d'.inBounds u v ↔ d.inBounds u v := by
  rw [h.same]
  exact Iff.rfl

theorem trans (h : d.Draws pen d') (h' : d'.Draws pen' d'') :
    d.Draws (pen.andThen pen') d'' := by
  have hW : d'.WIDTH = d.WIDTH := by rw [h.same]
  have hH : d'.HEIGHT = d.HEIGHT := by rw [h.same]
  refine ⟨?_, fun u v hin => ?_, fun p hp q hq => ?_⟩
  · have hsame := h'.same
    rw [h.same] at hsame
    exact hsame
  · rw [h'.pixel u v (h.inBounds_iff.2 hin), h.pixel u v hin]
    rfl
  · rw [← h.rest p hp q hq, ← hW, h'.rest p (hW ▸ hp) q (hH ▸ hq)]

theorem unique (hW : 0 < d.WIDTH) (h : d.Draws pen d') (h' : d.Draws pen d'') : d' = d'' := by
  rw [h.same, h'.same]
  congr 1
  refine Bitmap.ext_pixel hW fun p hp q => ?_
  by_cases hq : q < d.HEIGHT
  · obtain ⟨x, y, hin, hr⟩ := d.rotate_surj hp hq
    have hread := (h.pixel x y hin).trans (h'.pixel x y hin).symm
    rw [getPixel_eq (h.inBounds_iff.2 hin), getPixel_eq (h'.inBounds_iff.2 hin), h.same,
      h'.same] at hread
    change d'.buffer.pixel d.WIDTH (d.rotate x y).1.toNat (d.rotate x y).2.toNat =
      d''.buffer.pixel d.WIDTH (d.rotate x y).1.toNat (d.rotate x y).2.toNat at hread
    rwa [hr] at hread
  · rw [h.rest p hp q (by omega), h'.rest p hp q (by omega)]

/-- A painting of the buffer, in the coordinates of the screen. -/
theorem of_paints {R : Nat → Nat → Prop} {S : Int × Int → Prop} [DecidablePred S] {f : Bool → Bool}
    (h : Bitmap.Paints d.WIDTH f R d.buffer d'.buffer) (hsame : d' = { d with buffer := d'.buffer })
    (hin : ∀ u v, d.inBounds u v →
      (R (d.rotate u v).1.toNat (d.rotate u v).2.toNat ↔ S (u, v)))
    (hout : ∀ p q, R p q → q < d.HEIGHT) : d.Draws (Pen.on S f) d' := by
  refine ⟨hsame, fun u v huv => ?_, fun p hp q hq => ?_⟩
  · obtain ⟨⟨h0, hW⟩, _⟩ := rotate_bounds huv
    obtain ⟨hR, hn⟩ := h (d.rotate u v).1.toNat (by omega) (d.rotate u v).2.toNat
    have huv' : d'.inBounds u v := by rw [hsame]; exact huv
    have hread : d'.getPixel u v =
        d'.buffer.pixel d.WIDTH (d.rotate u v).1.toNat (d.rotate u v).2.toNat := by
      rw [getPixel_eq huv', hsame]
      rfl
    rw [hread, getPixel_eq huv]
    by_cases hS : S (u, v)
    · rw [Pen.on_pos hS, hR ((hin u v huv).2 hS)]
    · rw [Pen.on_neg hS, hn (mt (hin u v huv).1 hS)]
  · exact (h p hp q).2 fun hR => absurd (hout p q hR) (by omega)

/-- No byte behind the last page changes. -/
theorem outside (hW : 0 < d.WIDTH) (h : d.Draws pen d') {a : Nat}
    (ha : d.WIDTH * ((d.HEIGHT + 7) / 8) ≤ a) : d'.buffer a = d.buffer a := by
  have hpage : (d.HEIGHT + 7) / 8 ≤ a / d.WIDTH :=
    (Nat.le_div_iff_mul_le hW).2 (by rwa [Nat.mul_comm])
  apply BitVec.eq_of_getLsbD_eq
  intro k hk
  have hbit := h.rest (a % d.WIDTH) (Nat.mod_lt a hW) (8 * (a / d.WIDTH) + k) (by omega)
  unfold Bitmap.pixel at hbit
  rwa [show (8 * (a / d.WIDTH) + k) / 8 = a / d.WIDTH by omega,
    show (8 * (a / d.WIDTH) + k) % 8 = k by omega, Nat.mod_add_div' a d.WIDTH] at hbit

/-- A loop draws its pens one after the other. -/
theorem loop (pens : Nat → Pen (Int × Int) Bool) (step : Display → Nat → Display) {n : Nat}
    (h : ∀ b, ∀ i < n, { d with buffer := b }.Draws (pens i) (step { d with buffer := b } i)) :
    d.Draws (Pen.each pens n) ((List.range n).foldl step d) := by
  induction n with
  | zero => exact nothing d fun _ _ _ _ => rfl
  | succ n ih =>
    have hinit := ih fun b i hi => h b i (by omega)
    rw [List.range_succ, List.foldl_append]
    refine hinit.trans ?_
    have hstep := h ((List.range n).foldl step d).buffer n (by omega)
    rw [← hinit.same] at hstep
    exact hstep

end Draws

/-! ## Pixels -/

theorem draws_pixel (x y : Int) (color : Nat) (d : Display) :
    d.Draws (Pen.on (· = (x, y)) (paint color)) (d.drawPixel x y color) := by
  unfold drawPixel
  split
  · rename_i h
    obtain ⟨⟨h0, hW⟩, h0', hH⟩ := rotate_bounds h
    refine Draws.of_paints (paints_pixel color (x := (d.rotate x y).1.toNat) (by omega)
      (d.rotate x y).2.toNat d.buffer) rfl (fun u v huv => ?_) (by omega)
    obtain ⟨⟨hu0, _⟩, hv0, _⟩ := rotate_bounds huv
    constructor
    · rintro ⟨hp, hq⟩
      have heq : d.rotate u v = d.rotate x y := Prod.ext (by omega) (by omega)
      obtain ⟨rfl, rfl⟩ := rotate_inj heq
      rfl
    · intro heq
      rw [Prod.mk.injEq] at heq
      obtain ⟨rfl, rfl⟩ := heq
      exact ⟨rfl, rfl⟩
  · rename_i h
    refine Draws.nothing d fun u v huv b => Pen.on_neg ?_ _ b
    rintro heq
    rw [Prod.mk.injEq] at heq
    obtain ⟨rfl, rfl⟩ := heq
    exact h huv

/-- What was drawn is read back, under every rotation; no other pixel and no byte outside the buffer
changes. -/
theorem drawn_read (x y : Int) (color : Nat) (d : Display) :
    (∀ u v, (d.drawPixel x y color).getPixel u v =
      if d.inBounds x y ∧ (u, v) = (x, y) then paint color (d.getPixel u v) else d.getPixel u v) ∧
    (∀ a, d.WIDTH * ((d.HEIGHT + 7) / 8) ≤ a →
      (d.drawPixel x y color).buffer a = d.buffer a) := by
  have hdraws := draws_pixel x y color d
  constructor
  · intro u v
    by_cases huv : d.inBounds u v
    · rw [hdraws.pixel u v huv]
      unfold Pen.on
      by_cases heq : (u, v) = (x, y)
      · have hxy : d.inBounds x y := by
          rw [Prod.mk.injEq] at heq
          rwa [← heq.1, ← heq.2]
        rw [if_pos heq, if_pos ⟨hxy, heq⟩]
      · rw [if_neg heq, if_neg fun h => heq h.2]
    · have hnone : ∀ e : Display, ¬e.inBounds u v → e.getPixel u v = false := fun e he => if_neg he
      rw [hnone _ (mt hdraws.inBounds_iff.1 huv), hnone d huv, if_neg]
      rintro ⟨hxy, heq⟩
      rw [Prod.mk.injEq] at heq
      rw [heq.1, heq.2] at huv
      exact huv hxy
  · intro a ha
    by_cases hW : 0 < d.WIDTH
    · exact hdraws.outside hW ha
    · have hout : ¬d.inBounds x y := fun h => by
        have hb := rotate_bounds h
        omega
      rw [drawPixel, if_neg hout]

end Display

end BuptCar
