import BuptCar.Adafruit.SSD1306
import Mathlib.Tactic.Linarith

/-!
# What drawing does to the pixels

Each drawing function paints a set of pixels of the buffer and leaves every other bit of the memory
as it is (`Bitmap.Paints`): `paints_pixel` one, `paints_row` a row, `paints_column` a column through
its partial and solid bytes. `logical` turns a pixel of the buffer back into the rotated
coordinates.
-/

namespace BuptCar

/-- What a color makes of a pixel. -/
def paint (color : Nat) (bit : Bool) : Bool :=
  if color = SSD1306_WHITE then true
  else if color = SSD1306_BLACK then false
  else if color = SSD1306_INVERSE then !bit
  else bit

theorem acts_colorByte (color : Nat) (mask : BitVec 8) :
    Bitmap.Acts (colorByte color mask) mask (paint color) := by
  intro byte k hk
  unfold colorByte paint
  split
  · cases hm : mask.getLsbD k <;> simp [hm]
  · split
    · rw [BitVec.getLsbD_and, BitVec.getLsbD_not]
      cases mask.getLsbD k <;> simp [hk]
    · split
      · cases hm : mask.getLsbD k <;> simp [hm]
      · simp

theorem solidMask_bit : ∀ k < 8, (0xFF : BitVec 8).getLsbD k = true := by decide

/-- The solid bytes of a line agree with its partial ones on the three colors there are. -/
theorem acts_solidByte {color : Nat} (h : color ≤ 2) :
    Bitmap.Acts (Display.solidByte color) 0xFF (paint color) := by
  intro byte k hk
  rw [if_pos (solidMask_bit k hk)]
  have hcolor : color = 0 ∨ color = 1 ∨ color = 2 := by omega
  rcases hcolor with rfl | rfl | rfl
  · show (0 : BitVec 8).getLsbD k = false
    exact BitVec.getLsbD_zero
  · exact solidMask_bit k hk
  · show (byte ^^^ 0xFF).getLsbD k = !byte.getLsbD k
    rw [BitVec.getLsbD_xor, solidMask_bit k hk, Bool.xor_true]

/-! ## Masks -/

theorem oneMask_bit : ∀ m < 8, ∀ k < 8, (1 <<< m : BitVec 8).getLsbD k = true ↔ k = m := by
  decide

theorem premask_bit : ∀ n < 8, ∀ k < 8,
    (Display.premask[n]!).getLsbD k = true ↔ 8 ≤ k + n := by
  decide

/-- The first mask where the line ends in its byte. -/
theorem premask_cut_bit : ∀ n < 8, ∀ j < 8, ∀ k < 8,
    (Display.premask[n]! &&& 0xFF >>> j : BitVec 8).getLsbD k = true ↔
      8 ≤ k + n ∧ k + j < 8 := by
  decide

theorem postmask_bit : ∀ n < 8, ∀ k < 8, (Display.postmask[n]!).getLsbD k = true ↔ k < n := by
  decide

section
variable {W : Nat}

open Bitmap

/-! ## Rows and columns -/

theorem paints_pixel (color : Nat) {x : Nat} (hx : x < W) (y : Nat) (b : Bitmap) :
    Paints W (paint color) (fun u v => u = x ∧ v = y) b
      (b.modify (x + y / 8 * W) (colorByte color (1 <<< (y % 8)))) := by
  refine (paints_modify (acts_colorByte color _) hx (y / 8) b).congr fun u _ v => ?_
  rw [oneMask_bit _ (Nat.mod_lt y (by decide)) _ (Nat.mod_lt v (by decide))]
  omega

theorem paints_row (color : Nat) (y : Nat) {x w : Nat} (h : x + w ≤ W) (b : Bitmap) :
    Paints W (paint color) (fun u v => (x ≤ u ∧ u < x + w) ∧ v = y) b
      (Display.fillRow (colorByte color (1 <<< (y % 8))) w (y / 8 * W + x) b) := by
  induction w generalizing x b with
  | zero => exact paints_nothing (by omega) b
  | succ w ih =>
    have hfirst := paints_pixel color (show x < W by omega) y b
    have hrest := ih (x := x + 1) (by omega)
      (b.modify (x + y / 8 * W) (colorByte color (1 <<< (y % 8))))
    rw [Display.fillRow, Nat.add_comm (y / 8 * W) x,
      show x + y / 8 * W + 1 = y / 8 * W + (x + 1) by omega]
    exact (hfirst.trans hrest (by omega)).congr fun u _ v => by omega

theorem paints_solid {f : BitVec 8 → BitVec 8} {op : Bool → Bool} (hf : Acts f 0xFF op) {x : Nat}
    (hx : x < W) (page h : Nat) (b : Bitmap) :
    ∃ b', Display.fillSolid f W (x + page * W) h b = (x + (page + h / 8) * W, h % 8, b') ∧
      Paints W op (fun u v => u = x ∧ page ≤ v / 8 ∧ v / 8 < page + h / 8) b b' := by
  induction h using Nat.strong_induction_on generalizing page b with
  | _ h ih =>
    rw [Display.fillSolid]
    split
    · rename_i h8
      have hdiv : h / 8 = (h - 8) / 8 + 1 := by omega
      have hmod : h % 8 = (h - 8) % 8 := by omega
      obtain ⟨b', hrun, hp⟩ := ih (h - 8) (by omega) (page + 1) (b.modify (x + page * W) f)
      refine ⟨b', ?_, ?_⟩
      · rw [show x + page * W + W = x + (page + 1) * W by rw [Nat.add_mul, Nat.one_mul]; omega,
          hrun, hmod, hdiv]
        congr 2
        rw [show page + 1 + (h - 8) / 8 = page + ((h - 8) / 8 + 1) by omega]
      · have hfirst := (paints_modify hf hx page b).congr (S := fun u v => u = x ∧ v / 8 = page)
          fun u _ v => by
            have hbit := solidMask_bit (v % 8) (Nat.mod_lt v (by decide))
            exact ⟨fun hR => ⟨hR.1, hR.2.1⟩, fun hS => ⟨hS.1, hS.2, hbit⟩⟩
        exact (hfirst.trans hp (by omega)).congr fun u _ v => by omega
    · rename_i h8
      have hdiv : h / 8 = 0 := by omega
      have hmod : h % 8 = h := by omega
      refine ⟨b, by rw [hdiv, hmod]; rfl, paints_nothing (by omega) b⟩

/-- The partial byte at the top of a column: it ends with the byte or, if it is shorter, with the
column. -/
theorem paints_first (color : Nat) {x y h : Nat} (hx : x < W) (hy : y % 8 ≠ 0) (b : Bitmap) :
    Paints W (paint color) (fun u v => u = x ∧ y ≤ v ∧ v < y + h ∧ v / 8 = y / 8) b
      (b.modify (x + y / 8 * W) (colorByte color
        (if h < 8 - y % 8 then Display.premask[8 - y % 8]! &&& 0xFF >>> (8 - y % 8 - h)
          else Display.premask[8 - y % 8]!))) := by
  refine (paints_modify (acts_colorByte color _) hx (y / 8) b).congr fun u _ v => ?_
  have hv := Nat.mod_lt v (show 0 < 8 by decide)
  have hn : 8 - y % 8 < 8 := by omega
  split
  · rw [premask_cut_bit _ hn _ (by omega) _ hv]
    omega
  · rw [premask_bit _ hn _ hv]
    omega

theorem paints_last (color : Nat) {x n : Nat} (hx : x < W) (hn : n < 8) (page : Nat) (b : Bitmap) :
    Paints W (paint color) (fun u v => u = x ∧ 8 * page ≤ v ∧ v < 8 * page + n) b
      (b.modify (x + page * W) (colorByte color Display.postmask[n]!)) := by
  refine (paints_modify (acts_colorByte color _) hx page b).congr fun u _ v => ?_
  rw [postmask_bit _ hn _ (Nat.mod_lt v (by decide))]
  omega

/-- A column from the top of a byte on: solid bytes, then the last partial one. -/
theorem paints_tail {color : Nat} (hc : color ≤ 2) {x : Nat} (hx : x < W) (page h : Nat)
    (b : Bitmap) :
    Paints W (paint color) (fun u v => u = x ∧ 8 * page ≤ v ∧ v < 8 * page + h) b
      (let r := Display.fillSolid (Display.solidByte color) W (x + page * W) h b
       if r.2.1 ≠ 0 then
        r.2.2.modify r.1 (colorByte color Display.postmask[r.2.1 % 8]!) else r.2.2) := by
  obtain ⟨b', hrun, hp⟩ := paints_solid (acts_solidByte hc) hx page h b
  rw [hrun]
  have hsolid : Paints W (paint color)
      (fun u v => u = x ∧ 8 * page ≤ v ∧ v < 8 * (page + h / 8)) b b' :=
    hp.congr fun u _ v => by omega
  dsimp only
  split
  · have hlast := paints_last color hx (Nat.mod_lt h (show 0 < 8 by decide)) (page + h / 8) b'
    rw [Nat.mod_mod]
    exact (hsolid.trans hlast (by omega)).congr fun u _ v => by omega
  · exact hsolid.congr fun u _ v => by omega

theorem paints_column {color : Nat} (hc : color ≤ 2) {x : Nat} (hx : x < W) (y h : Nat)
    (b : Bitmap) :
    Paints W (paint color) (fun u v => u = x ∧ y ≤ v ∧ v < y + h) b
      (Display.drawVBytes x y h color W b) := by
  unfold Display.drawVBytes
  rw [Nat.add_comm (y / 8 * W) x]
  by_cases hy : y % 8 = 0
  · have htail := paints_tail hc hx (y / 8) h b
    simp only [hy, ne_eq, not_true_eq_false, if_false, Nat.zero_le, if_true, Nat.sub_zero]
    exact htail.congr fun u _ v => by omega
  · have hfirst := paints_first color hx hy (h := h) b
    have hne : 8 - y % 8 ≠ 0 := by omega
    simp only [hy, ne_eq, not_false_eq_true, if_true, hne]
    split
    · have htail := paints_tail hc hx (y / 8 + 1) (h - (8 - y % 8))
        (b.modify (x + y / 8 * W) (colorByte color
          (if h < 8 - y % 8 then Display.premask[8 - y % 8]! &&& 0xFF >>> (8 - y % 8 - h)
            else Display.premask[8 - y % 8]!)))
      rw [show x + y / 8 * W + W = x + (y / 8 + 1) * W by rw [Nat.add_mul, Nat.one_mul]; omega]
      exact (hfirst.trans htail (by omega)).congr fun u _ v => by omega
    · exact hfirst.congr fun u _ v => by omega

end

namespace Display

/-! ## Lines in the coordinates of the buffer -/

theorem toInt16_eq {n : Int} (h : -2 ^ 15 ≤ n) (h' : n < 2 ^ 15) : toInt16 n = n := by
  rw [toInt16, BitVec.toInt_ofInt]
  exact Int.bmod_eq_of_le (by omega) (by omega)

theorem clip_start (x : Int) : (if x < 0 then 0 else x) = max x 0 := by
  split <;> omega

theorem clip_length {x w : Int} (hw : w < 2 ^ 15) (hxw : -2 ^ 15 ≤ x + w) :
    (if x < 0 then toInt16 (w + x) else w) = x + w - max x 0 := by
  split
  · rw [toInt16_eq (by omega) (by omega)]
    omega
  · omega

theorem clip_end (x w W : Int) : (if x + w > W then W - x else w) = min (x + w) W - x := by
  split <;> omega

section
variable {color : Nat} (d : Display)

theorem paints_horizontal (color : Nat) {x y w : Int} (hw : w < 2 ^ 15) (hxw : -2 ^ 15 ≤ x + w) :
    Bitmap.Paints d.WIDTH (paint color)
      (fun u v => (x ≤ u ∧ (u : Int) < x + w) ∧ (v : Int) = y ∧ v < d.HEIGHT) d.buffer
      (d.drawFastHLineInternal x y w color).buffer := by
  unfold drawFastHLineInternal
  dsimp only
  rw [clip_length hw hxw, clip_start, clip_end]
  split
  · split
    · refine (paints_row color y.toNat (W := d.WIDTH) (by omega) d.buffer).congr fun u hu v => ?_
      omega
    · exact Bitmap.paints_nothing (by omega) d.buffer
  · exact Bitmap.paints_nothing (by omega) d.buffer

theorem paints_vertical (hc : color ≤ 2) (hH : d.HEIGHT < 256) {x y h : Int} (hh : h < 2 ^ 15)
    (hyh : -2 ^ 15 ≤ y + h) :
    Bitmap.Paints d.WIDTH (paint color)
      (fun u v => (u : Int) = x ∧ (y ≤ v ∧ (v : Int) < y + h) ∧ v < d.HEIGHT) d.buffer
      (d.drawFastVLineInternal x y h color).buffer := by
  unfold drawFastVLineInternal
  dsimp only
  rw [clip_length hh hyh, clip_start, clip_end]
  split
  · split
    · refine (paints_column hc (x := x.toNat) (by omega) _ _ d.buffer).congr fun u hu v => ?_
      omega
    · exact Bitmap.paints_nothing (by omega) d.buffer
  · exact Bitmap.paints_nothing (by omega) d.buffer

end


/-! ## Reading -/

theorem bit_test (byte : BitVec 8) {k : Nat} (hk : k < 8) :
    decide (byte &&& (1 <<< k : BitVec 8) ≠ 0) = byte.getLsbD k := by
  by_cases h : byte.getLsbD k = true
  · have hne : byte &&& (1 <<< k : BitVec 8) ≠ 0 := by
      intro h0
      have hbit := congrArg (fun b => BitVec.getLsbD b k) h0
      rw [BitVec.getLsbD_and, h, (oneMask_bit k hk k hk).2 rfl] at hbit
      simp at hbit
    rw [h, decide_eq_true hne]
  · have h0 : byte &&& (1 <<< k : BitVec 8) = 0 := by
      apply BitVec.eq_of_getLsbD_eq
      intro i hi
      rw [BitVec.getLsbD_and]
      by_cases hik : i = k
      · subst hik
        rw [Bool.not_eq_true _ |>.mp h]
        simp
      · rw [Bool.eq_false_iff.2 (mt (oneMask_bit k hk i hi).1 hik)]
        simp
    rw [h0, Bool.not_eq_true _ |>.mp h]
    rfl

end Display

end BuptCar
