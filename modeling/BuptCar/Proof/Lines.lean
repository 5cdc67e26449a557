import BuptCar.Adafruit.GFX
import BuptCar.Proof.Canvas

/-!
# Lines of the screen

The display draws a line byte by byte, through the rotation and its clipping; the base class draws
it pixel by pixel. Both fill the same region (`draws_hline`, `draws_vline`, `draws_loop`), so the
faster one can stand for the other.
-/

namespace BuptCar

namespace Display

/-- The sizes the constructors take: `uint8_t`. -/
structure Panel (d : Display) : Prop where
  width_pos : 0 < d.WIDTH
  width_lt : d.WIDTH < 256
  height_lt : d.HEIGHT < 256

theorem Panel.with_buffer {d : Display} (hd : d.Panel) (b : Bitmap) :
    { d with buffer := b }.Panel := ⟨hd.width_pos, hd.width_lt, hd.height_lt⟩

theorem Panel.screen_lt {d : Display} (hd : d.Panel) : d.width < 256 ∧ d.height < 256 := by
  have hW := hd.width_lt
  have hH := hd.height_lt
  obtain ⟨-, hw, hh, -⟩ | ⟨-, hw, hh, -⟩ | ⟨-, hw, hh, -⟩ | ⟨-, hw, hh, -⟩ := d.turned <;> omega

/-- A coordinate that every rotation keeps in `int16_t`. -/
def OnGrid (n : Int) : Prop := 256 - 2 ^ 15 ≤ n ∧ n < 2 ^ 15

abbrev row (x y w : Int) : Int × Int → Prop := fun a => (x ≤ a.1 ∧ a.1 < x + w) ∧ a.2 = y

abbrev column (x y h : Int) : Int × Int → Prop := fun a => a.1 = x ∧ y ≤ a.2 ∧ a.2 < y + h

variable {d : Display} {color : Nat}

theorem ite_same (p : Prop) [Decidable p] (b : Bitmap) (d : Display) :
    (if p then { d with buffer := b } else d) =
      { d with buffer := (if p then { d with buffer := b } else d).buffer } := by
  split <;> rfl

theorem drawFastHLineInternal_same (x y w : Int) (color : Nat) (d : Display) :
    d.drawFastHLineInternal x y w color =
      { d with buffer := (d.drawFastHLineInternal x y w color).buffer } := by
  unfold drawFastHLineInternal
  dsimp only
  split
  · exact ite_same ..
  · rfl

theorem drawFastVLineInternal_same (x y h : Int) (color : Nat) (d : Display) :
    d.drawFastVLineInternal x y h color =
      { d with buffer := (d.drawFastVLineInternal x y h color).buffer } := by
  unfold drawFastVLineInternal
  dsimp only
  split
  · exact ite_same ..
  · rfl

section
variable {S : Int × Int → Prop} [DecidablePred S]

theorem draws_horizontal {x y w : Int} (hw : w < 2 ^ 15) (hxw : -2 ^ 15 ≤ x + w)
    (hS : ∀ u v, d.inBounds u v → (row x y w (d.rotate u v) ↔ S (u, v))) :
    d.Draws (Pen.on S (paint color)) (d.drawFastHLineInternal x y w color) := by
  refine Draws.of_paints (d.paints_horizontal color hw hxw) (drawFastHLineInternal_same ..)
    (fun u v huv => ?_) (by omega)
  have hb := rotate_bounds huv
  rw [← hS u v huv]
  unfold row
  omega

theorem draws_vertical (hd : d.Panel) (hc : color ≤ 2) {x y h : Int} (hh : h < 2 ^ 15)
    (hyh : -2 ^ 15 ≤ y + h)
    (hS : ∀ u v, d.inBounds u v → (column x y h (d.rotate u v) ↔ S (u, v))) :
    d.Draws (Pen.on S (paint color)) (d.drawFastVLineInternal x y h color) := by
  refine Draws.of_paints (d.paints_vertical hc hd.height_lt hh hyh) (drawFastVLineInternal_same ..)
    (fun u v huv => ?_) (by omega)
  have hb := rotate_bounds huv
  rw [← hS u v huv]
  unfold column
  omega

end

theorem draws_hline (hd : d.Panel) (hc : color ≤ 2) {x y w : Int} (hx : OnGrid x) (hy : OnGrid y)
    (hxw : OnGrid (x + w)) (hw : w < 2 ^ 15) :
    d.Draws (Pen.on (row x y w) (paint color)) (d.drawFastHLine x y w color) := by
  have hW := hd.width_lt
  have hH := hd.height_lt
  obtain ⟨hx0, hx1⟩ := hx
  obtain ⟨hy0, hy1⟩ := hy
  obtain ⟨he0, he1⟩ := hxw
  unfold drawFastHLine
  obtain ⟨h1, -, -, hr⟩ | ⟨h2, -, -, hr⟩ | ⟨h3, -, -, hr⟩ | ⟨hn, -, -, hr⟩ := d.turned
  · simp only [h1]
    rw [toInt16_eq (by omega) (by omega)]
    exact draws_vertical hd hc hw (by omega) fun u v _ => by rw [hr]; omega
  · simp only [h2]
    rw [toInt16_eq (n := d.WIDTH - x - 1) (by omega) (by omega),
      toInt16_eq (n := d.HEIGHT - y - 1) (by omega) (by omega), toInt16_eq (by omega) (by omega)]
    exact draws_horizontal hw (by omega) fun u v _ => by rw [hr]; omega
  · simp only [h3]
    rw [toInt16_eq (n := d.HEIGHT - x - 1) (by omega) (by omega), toInt16_eq (by omega) (by omega)]
    exact draws_vertical hd hc hw (by omega) fun u v _ => by rw [hr]; omega
  · split
    · omega
    · omega
    · omega
    · exact draws_horizontal hw (by omega) fun u v _ => by rw [hr]

theorem draws_vline (hd : d.Panel) (hc : color ≤ 2) {x y h : Int} (hx : OnGrid x) (hy : OnGrid y)
    (hyh : OnGrid (y + h)) (hh : h < 2 ^ 15) :
    d.Draws (Pen.on (column x y h) (paint color)) (d.drawFastVLine x y h color) := by
  have hW := hd.width_lt
  have hH := hd.height_lt
  obtain ⟨hx0, hx1⟩ := hx
  obtain ⟨hy0, hy1⟩ := hy
  obtain ⟨he0, he1⟩ := hyh
  unfold drawFastVLine
  obtain ⟨h1, -, -, hr⟩ | ⟨h2, -, -, hr⟩ | ⟨h3, -, -, hr⟩ | ⟨hn, -, -, hr⟩ := d.turned
  · simp only [h1]
    rw [toInt16_eq (n := d.WIDTH - y - 1) (by omega) (by omega), toInt16_eq (by omega) (by omega)]
    exact draws_horizontal hh (by omega) fun u v _ => by rw [hr]; omega
  · simp only [h2]
    rw [toInt16_eq (n := d.WIDTH - x - 1) (by omega) (by omega),
      toInt16_eq (n := d.HEIGHT - y - 1) (by omega) (by omega), toInt16_eq (by omega) (by omega)]
    exact draws_vertical hd hc hh (by omega) fun u v _ => by rw [hr]; omega
  · simp only [h3]
    rw [toInt16_eq (by omega) (by omega)]
    exact draws_horizontal hh (by omega) fun u v _ => by rw [hr]; omega
  · split
    · omega
    · omega
    · omega
    · exact draws_vertical hd hc hh (by omega) fun u v _ => by rw [hr]

/-! ## The lines of the base class -/

/-- Without a slope the error stays where it is and the line in its row. -/
theorem draws_loop (steep : Bool) (dx ystep : Int) (color n : Nat) (x0 y0 err : Int) (h0 : 0 ≤ err)
    (h15 : err < 2 ^ 15) (d : Display) :
    d.Draws (Pen.on (fun a => row x0 y0 n (if steep then a.swap else a)) (paint color))
      (d.writeLineLoop steep dx 0 ystep color n x0 y0 err) := by
  induction n generalizing x0 d with
  | zero => exact Draws.nothing d fun u v _ b => Pen.on_neg (by unfold row; omega) _ b
  | succ n ih =>
    unfold writeLineLoop
    dsimp only
    rw [Int.sub_zero, toInt16_eq (by omega) h15, if_neg (by omega)]
    have hdot : d.Draws (Pen.on (fun a => (if steep then a.swap else a) = (x0, y0)) (paint color))
        (if steep then d.drawPixel y0 x0 color else d.drawPixel x0 y0 color) := by
      cases steep with
      | false => exact draws_pixel x0 y0 color d
      | true =>
        refine (draws_pixel y0 x0 color d).congr fun u v _ b => ?_
        unfold Pen.on
        simp only [if_true, Prod.swap_prod_mk, Prod.mk.injEq, and_comm]
    refine (hdot.trans (ih (x0 + 1) _)).congr fun u v _ b => ?_
    refine Pen.on_andThen_on ?_ ?_ _ b
    · rw [Prod.ext_iff]
      unfold row
      dsimp only
      omega
    · rw [Prod.ext_iff]
      unfold row
      dsimp only
      omega

theorem draws_flat (steep : Bool) (ystep : Int) (color : Nat) {x0 x1 : Int} (y0 : Int)
    (hx : x0 ≤ x1) (h15 : x1 - x0 < 2 ^ 15) (d : Display) :
    d.Draws (Pen.on (fun a => row x0 y0 (x1 + 1 - x0) (if steep then a.swap else a)) (paint color))
      (d.writeLineLoop steep (toInt16 (x1 - x0)) (toInt16 (y0 - y0).natAbs) ystep color
        (x1 + 1 - x0).toNat x0 y0 ((toInt16 (x1 - x0)).tdiv 2)) := by
  rw [toInt16_eq (by omega) h15, Int.sub_self, Int.tdiv_eq_ediv_of_nonneg (by omega)]
  refine (draws_loop steep _ _ color _ x0 y0 _ (by omega) (by omega) d).congr fun u v _ b => ?_
  rw [Int.toNat_of_nonneg (by omega)]

theorem draws_base_hline {x y w : Int} (hx : OnGrid x) (hxw : OnGrid (x + w)) (h1 : 1 ≤ w)
    (hw : w < 2 ^ 15) (color : Nat) (d : Display) :
    d.Draws (Pen.on (row x y w) (paint color)) (Gfx.drawFastHLine x y w color d) := by
  obtain ⟨hx0, hx1⟩ := hx
  obtain ⟨he0, he1⟩ := hxw
  unfold Gfx.drawFastHLine writeLine
  have hsteep : decide ((y - y).natAbs > (x + w - 1 - x).natAbs) = false :=
    decide_eq_false (by omega)
  have hswap : ¬x > x + w - 1 := by omega
  rw [toInt16_eq (by omega) (by omega), hsteep]
  simp only [Bool.false_eq_true, if_false, if_neg hswap]
  refine (draws_flat false _ color y (by omega) (by omega) d).congr fun u v _ b => ?_
  rw [show x + w - 1 + 1 - x = w by omega]
  rfl

theorem draws_base_vline {x y h : Int} (hy : OnGrid y) (hyh : OnGrid (y + h)) (h1 : 1 ≤ h)
    (hh : h < 2 ^ 15) (color : Nat) (d : Display) :
    d.Draws (Pen.on (column x y h) (paint color)) (Gfx.drawFastVLine x y h color d) := by
  obtain ⟨hy0, hy1⟩ := hy
  obtain ⟨he0, he1⟩ := hyh
  unfold Gfx.drawFastVLine writeLine
  rw [toInt16_eq (by omega) (by omega)]
  by_cases hone : h = 1
  · -- a single point is not steep
    subst hone
    have hsteep : decide ((y + 1 - 1 - y).natAbs > (x - x).natAbs) = false :=
      decide_eq_false (by omega)
    rw [hsteep, show y + 1 - 1 = y by omega]
    simp only [Bool.false_eq_true, if_false, if_neg (show ¬x > x by omega)]
    refine (draws_flat false _ color y (by omega) (by omega) d).congr fun u v _ b => ?_
    unfold Pen.on row column
    congr 1
    exact propext (by simp only [Bool.false_eq_true, if_false]; omega)
  · have hsteep : decide ((y + h - 1 - y).natAbs > (x - x).natAbs) = true :=
      decide_eq_true (by omega)
    have hswap : ¬y > y + h - 1 := by omega
    rw [hsteep]
    simp only [if_true, if_neg hswap]
    refine (draws_flat true _ color x (by omega) (by omega) d).congr fun u v _ b => ?_
    unfold Pen.on row column
    congr 1
    exact propext (by simp only [if_true, Prod.swap_prod_mk]; omega)

/-- The lines of the display are those of the base class, under every rotation and however much of
them lies outside the screen. -/
theorem fast_lines (hd : d.Panel) (hc : color ≤ 2) {x y w h : Int} (hx : OnGrid x) (hy : OnGrid y)
    (hxw : OnGrid (x + w)) (hyh : OnGrid (y + h)) (hw : 1 ≤ w ∧ w < 2 ^ 15)
    (hh : 1 ≤ h ∧ h < 2 ^ 15) :
    d.drawFastHLine x y w color = Gfx.drawFastHLine x y w color d ∧
      d.drawFastVLine x y h color = Gfx.drawFastVLine x y h color d :=
  ⟨(draws_hline hd hc hx hy hxw hw.2).unique hd.width_pos
      (draws_base_hline hx hxw hw.1 hw.2 color d),
    (draws_vline hd hc hx hy hyh hh.2).unique hd.width_pos
      (draws_base_vline hy hyh hh.1 hh.2 color d)⟩

theorem fast_lines_turned :
    ((construct 128 32 fun _ => 0).setRotation 1).drawFastHLine (-3) 5 200 2 =
      Gfx.drawFastHLine (-3) 5 200 2 ((construct 128 32 fun _ => 0).setRotation 1) ∧
    ((construct 128 32 fun _ => 0).setRotation 1).drawFastVLine (-3) 5 40 2 =
      Gfx.drawFastVLine (-3) 5 40 2 ((construct 128 32 fun _ => 0).setRotation 1) :=
  fast_lines ⟨by decide, by decide, by decide⟩ (by decide) ⟨by decide, by decide⟩
    ⟨by decide, by decide⟩ ⟨by decide, by decide⟩ ⟨by decide, by decide⟩ ⟨by decide, by decide⟩
    ⟨by decide, by decide⟩

end Display

end BuptCar
