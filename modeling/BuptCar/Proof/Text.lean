import BuptCar.Proof.Lines
import BuptCar.Lib.Sheet

/-!
# Text on the screen

A character is a grid of six by eight dots, the dots rectangles under magnification; `charPen` is
what `drawChar` makes of every pixel. A string fills the cells of the screen in reading order,
wrapping at the right edge: the cell `k` is at column `k % n` of line `k / n`.
-/

namespace BuptCar

namespace Display

abbrev rect (x y w h : Int) : Int × Int → Prop :=
  fun a => (x ≤ a.1 ∧ a.1 < x + w) ∧ y ≤ a.2 ∧ a.2 < y + h

variable {d : Display} {color bg : Nat}

theorem draws_fillRect (hd : d.Panel) (hc : color ≤ 2) {x y w h : Int} (hx : OnGrid x)
    (hy : OnGrid y) (hxw : OnGrid (x + w)) (hyh : OnGrid (y + h)) (hh : h < 2 ^ 15) :
    d.Draws (Pen.on (rect x y w h) (paint color)) (d.fillRect x y w h color) := by
  obtain ⟨hx0, hx1⟩ := hx
  obtain ⟨he0, he1⟩ := hxw
  unfold fillRect
  refine (Draws.loop (fun i => Pen.on (column (x + i) y h) (paint color)) _
    fun b i hi => ?_).congr fun u v _ b => ?_
  · exact draws_vline (hd.with_buffer b) hc ⟨by omega, by omega⟩ hy hyh hh
  · by_cases hu : x ≤ u ∧ u < x + w
    · rw [Pen.each_single (k := (u - x).toNat) (by omega)
        fun i _ hne b => Pen.on_neg (by unfold column; omega) _ b]
      by_cases hv : y ≤ v ∧ v < y + h
      · rw [Pen.on_pos (by unfold column; omega), Pen.on_pos (by unfold rect; omega)]
      · rw [Pen.on_neg (by unfold column; omega), Pen.on_neg (by unfold rect; omega)]
    · rw [Pen.each_idle fun i _ b => Pen.on_neg (by unfold column; omega) _ b,
        Pen.on_neg (by unfold rect; omega)]

theorem draws_dot (hd : d.Panel) (hc : color ≤ 2) {x y : Int} {sizeX sizeY : Nat} (hx : OnGrid x)
    (hy : OnGrid y) (hxw : OnGrid (x + sizeX)) (hyh : OnGrid (y + sizeY)) (hs : sizeY < 256) :
    d.Draws (Pen.on (rect x y sizeX sizeY) (paint color)) (d.drawDot x y sizeX sizeY color) := by
  unfold drawDot
  split
  · rename_i h1
    obtain ⟨rfl, rfl⟩ := h1
    refine (draws_pixel x y color d).congr fun u v _ b => ?_
    unfold Pen.on rect
    congr 1
    exact propext (by simp only [Prod.mk.injEq]; omega)
  · exact draws_fillRect hd hc hx hy hxw hyh (by omega)

/-! ## Characters -/

/-- What a dot of a character does: an equal background color leaves it alone. -/
def ink (color bg : Nat) (bit : Bool) : Bool → Bool :=
  if bit then paint color else if bg ≠ color then paint bg else id

/-- The six columns of a character, the last one empty. -/
def glyph (font : Nat → BitVec 8) (c i j : Nat) : Bool :=
  decide (i < 5) && (font (c * 5 + i)).getLsbD j

def charPen (font : Nat → BitVec 8) (x y : Int) (c color bg sizeX sizeY : Nat) :
    Pen (Int × Int) Bool := fun a b =>
  if rect x y (6 * sizeX) (8 * sizeY) a then
    ink color bg (glyph font c ((a.1 - x).toNat / sizeX) ((a.2 - y).toNat / sizeY)) b
  else b

/-- The dots of a line: which one a coordinate is in. -/
theorem slot_iff {s : Nat} (hs : 0 < s) (i : Nat) {x u : Int} (h : x ≤ u) :
    (x + i * s ≤ u ∧ u < x + i * s + s) ↔ (u - x).toNat / s = i := by
  obtain ⟨n, hn⟩ := Int.eq_ofNat_of_zero_le (show 0 ≤ u - x by omega)
  have hcast : ((i * s : Nat) : Int) = i * s := Nat.cast_mul i s
  rw [hn, Int.toNat_natCast, Nat.div_eq_iff hs, ← hcast]
  omega

theorem shifted_bit (line : BitVec 8) {j : Nat} :
    line >>> j &&& 1 ≠ 0 ↔ line.getLsbD j = true := by
  have h := bit_test (line >>> j) (show 0 < 8 by decide)
  rw [BitVec.getLsbD_ushiftRight, Nat.add_zero] at h
  rw [← h, decide_eq_true_eq]
  exact Iff.rfl

/-- A dot with either color. -/
theorem draws_ink (hd : d.Panel) (hc : color ≤ 2) (hbg : bg ≤ 2) (bit : Bool) {x y : Int}
    {sizeX sizeY : Nat} (hx : OnGrid x) (hy : OnGrid y) (hxw : OnGrid (x + sizeX))
    (hyh : OnGrid (y + sizeY)) (hs : sizeY < 256) :
    d.Draws (Pen.on (rect x y sizeX sizeY) (ink color bg bit))
      (if bit then d.drawDot x y sizeX sizeY color
        else if bg ≠ color then d.drawDot x y sizeX sizeY bg else d) := by
  unfold ink
  split
  · exact draws_dot hd hc hx hy hxw hyh hs
  · split
    · exact draws_dot hd hbg hx hy hxw hyh hs
    · refine Draws.nothing d fun u v _ b => ?_
      unfold Pen.on
      split <;> rfl

/-- The part of a character in one of its columns. -/
def columnPen (font : Nat → BitVec 8) (x y : Int) (c color bg sizeX sizeY i : Nat) :
    Pen (Int × Int) Bool := fun a b =>
  if rect (x + i * sizeX) y sizeX (8 * sizeY) a then
    ink color bg (glyph font c i ((a.2 - y).toNat / sizeY)) b
  else b

theorem draws_column (hd : d.Panel) (hc : color ≤ 2) (hbg : bg ≤ 2) (font : Nat → BitVec 8)
    {x y : Int} (c : Nat) {i sizeX sizeY : Nat} (hi : i < 5) (hs : 0 < sizeY ∧ sizeY < 256)
    (hx : OnGrid (x + i * sizeX)) (hxw : OnGrid (x + i * sizeX + sizeX)) (hy : OnGrid y)
    (hyh : OnGrid (y + 8 * sizeY)) :
    d.Draws (columnPen font x y c color bg sizeX sizeY i)
      (d.drawCharColumn font x y c i color bg sizeX sizeY) := by
  obtain ⟨hy0, hy1⟩ := hy
  obtain ⟨he0, he1⟩ := hyh
  unfold drawCharColumn
  dsimp only
  simp only [shifted_bit]
  refine (Draws.loop (fun j => Pen.on (rect (x + i * sizeX) (y + j * sizeY) sizeX sizeY)
    (ink color bg ((font (c * 5 + i)).getLsbD j))) _ fun b j hj => ?_).congr fun u v _ b => ?_
  · have hcast : ((j * sizeY : Nat) : Int) = j * sizeY := Nat.cast_mul j sizeY
    have hle : j * sizeY ≤ 7 * sizeY := Nat.mul_le_mul_right sizeY (by omega)
    exact draws_ink (hd.with_buffer b) hc hbg _ hx ⟨by omega, by omega⟩ hxw ⟨by omega, by omega⟩
      hs.2
  · unfold columnPen
    by_cases hin : rect (x + i * sizeX) y sizeX (8 * sizeY) (u, v)
    · obtain ⟨hu, hv0, hv1⟩ := hin
      dsimp only at hu hv0 hv1
      have hslot := fun j => slot_iff hs.1 j hv0
      have hk : (v - y).toNat / sizeY < 8 := by
        rw [Nat.div_lt_iff_lt_mul hs.1]
        omega
      rw [Pen.each_single hk fun j _ hne b => Pen.on_neg ?_ _ b, Pen.on_pos ?_,
        if_pos ⟨hu, hv0, hv1⟩, glyph, decide_eq_true hi, Bool.true_and]
      · exact ⟨hu, (hslot _).2 rfl⟩
      · rintro ⟨-, hv⟩
        exact hne ((hslot j).1 hv).symm
    · rw [if_neg hin]
      refine Pen.each_idle (fun j hj b => Pen.on_neg ?_ _ b) b
      have hcast : ((j * sizeY : Nat) : Int) = j * sizeY := Nat.cast_mul j sizeY
      have hle : (j + 1) * sizeY ≤ 8 * sizeY := Nat.mul_le_mul_right sizeY (by omega)
      rw [Nat.add_mul] at hle
      rintro ⟨hu, hv0, hv1⟩
      exact hin ⟨hu, by dsimp only at hv0 hv1 ⊢; omega, by dsimp only at hv0 hv1 ⊢; omega⟩

/-- The opaque column behind a character is one without dots. -/
theorem draws_last (hd : d.Panel) (hbg : bg ≤ 2) (font : Nat → BitVec 8) {x y : Int}
    (c color : Nat) {sizeX sizeY : Nat} (hs : sizeY < 256) (hx : OnGrid (x + 5 * sizeX))
    (hxw : OnGrid (x + 5 * sizeX + sizeX)) (hy : OnGrid y) (hyh : OnGrid (y + 8 * sizeY)) :
    d.Draws (columnPen font x y c color bg sizeX sizeY 5)
      (if bg ≠ color then
        if sizeX = 1 ∧ sizeY = 1 then d.drawFastVLine (x + 5) y 8 bg
        else d.fillRect (x + 5 * sizeX) y sizeX (8 * sizeY) bg
      else d) := by
  by_cases hne : bg ≠ color
  · have hpen : d.Draws (Pen.on (rect (x + 5 * sizeX) y sizeX (8 * sizeY)) (paint bg))
        (if sizeX = 1 ∧ sizeY = 1 then d.drawFastVLine (x + 5) y 8 bg
          else d.fillRect (x + 5 * sizeX) y sizeX (8 * sizeY) bg) := by
      split
      · rename_i h1
        obtain ⟨rfl, rfl⟩ := h1
        refine (draws_vline hd hbg hx hy hyh (by omega)).congr fun u v _ b => ?_
        unfold Pen.on
        congr 1
        exact propext (by unfold column rect; omega)
      · exact draws_fillRect hd hbg hx hy hxw hyh (by omega)
    rw [if_pos hne]
    refine hpen.congr fun u v _ b => ?_
    unfold columnPen ink glyph Pen.on
    simp only [if_pos hne]
    rfl
  · rw [if_neg hne]
    refine Draws.nothing d fun u v _ b => ?_
    unfold columnPen ink glyph
    simp only [if_neg hne]
    split <;> rfl

/-- The entry of the font for a byte: the classic one skips the character 176. -/
def fontIndex (c : Nat) (d : Display) : Nat := if !d.cp437 ∧ c ≥ 176 then (c + 1) % 256 else c

theorem each_column (font : Nat → BitVec 8) (x y : Int) (c color bg : Nat) {sizeX : Nat}
    (hs : 0 < sizeX) (sizeY : Nat) (u v : Int) (b : Bool) :
    Pen.each (columnPen font x y c color bg sizeX sizeY) 6 (u, v) b =
      charPen font x y c color bg sizeX sizeY (u, v) b := by
  unfold charPen
  by_cases hin : rect x y (6 * sizeX) (8 * sizeY) (u, v)
  · obtain ⟨⟨hu0, hu1⟩, hv⟩ := hin
    dsimp only at hu0 hu1
    have hslot := fun i => slot_iff hs i hu0
    have hk : (u - x).toNat / sizeX < 6 := by
      rw [Nat.div_lt_iff_lt_mul hs]
      omega
    rw [Pen.each_single hk fun i _ hne b => ?_, columnPen, if_pos ?_, if_pos ⟨⟨hu0, hu1⟩, hv⟩]
    · exact ⟨(hslot _).2 rfl, hv⟩
    · refine if_neg ?_
      rintro ⟨hu, -⟩
      exact hne ((hslot i).1 hu).symm
  · rw [if_neg hin]
    refine Pen.each_idle (fun i hi b => ?_) b
    have hcast : ((i * sizeX : Nat) : Int) = i * sizeX := Nat.cast_mul i sizeX
    have hle : (i + 1) * sizeX ≤ 6 * sizeX := Nat.mul_le_mul_right sizeX (by omega)
    rw [Nat.add_mul] at hle
    refine if_neg ?_
    rintro ⟨⟨hu0, hu1⟩, hv⟩
    exact hin ⟨⟨by dsimp only at hu0 hu1 ⊢; omega, by dsimp only at hu0 hu1 ⊢; omega⟩, hv⟩

theorem draws_char (hd : d.Panel) (hc : color ≤ 2) (hbg : bg ≤ 2) (font : Nat → BitVec 8)
    (x y : Int) (c : Nat) {sizeX sizeY : Nat} (hsx : 0 < sizeX ∧ sizeX < 256)
    (hsy : 0 < sizeY ∧ sizeY < 256) :
    d.Draws (charPen font x y (d.fontIndex c) color bg sizeX sizeY)
      (d.drawChar font x y c color bg sizeX sizeY) := by
  obtain ⟨hw, hh⟩ := hd.screen_lt
  unfold drawChar
  split
  · rename_i hclip
    refine Draws.nothing d fun u v huv b => if_neg ?_
    unfold inBounds at huv
    unfold rect
    omega
  · rename_i hclip
    have hy : OnGrid y ∧ OnGrid (y + 8 * sizeY) := ⟨⟨by omega, by omega⟩, ⟨by omega, by omega⟩⟩
    have hx : ∀ i ≤ 5, OnGrid (x + (i : Nat) * sizeX) ∧ OnGrid (x + (i : Nat) * sizeX + sizeX) := by
      intro i hi
      have hcast : ((i * sizeX : Nat) : Int) = i * sizeX := Nat.cast_mul i sizeX
      have hle : i * sizeX ≤ 5 * sizeX := Nat.mul_le_mul_right sizeX hi
      exact ⟨⟨by omega, by omega⟩, ⟨by omega, by omega⟩⟩
    have hcols := Draws.loop (d := d) (n := 5)
      (columnPen font x y (d.fontIndex c) color bg sizeX sizeY)
      (fun d' i => d'.drawCharColumn font x y (d.fontIndex c) i color bg sizeX sizeY)
      fun b i hi => draws_column (hd.with_buffer b) hc hbg font _ hi hsy (hx i (by omega)).1
        (hx i (by omega)).2 hy.1 hy.2
    have hd' := hd.with_buffer ((List.range 5).foldl
      (fun d' i => d'.drawCharColumn font x y (d.fontIndex c) i color bg sizeX sizeY) d).buffer
    rw [← hcols.same] at hd'
    have hlast := draws_last hd' hbg font (d.fontIndex c) color hsy.2 (hx 5 le_rfl).1
      (hx 5 le_rfl).2 hy.1 hy.2
    exact (hcols.trans hlast).congr fun u v _ b => each_column font x y _ color bg hsx.1 sizeY u v b

/-- A character of any size and place, under every rotation and clipping: each pixel of its grid
gets the dot it is in, all others and the bytes outside the buffer stay. -/
theorem char_drawn (hd : d.Panel) (hc : color ≤ 2) (hbg : bg ≤ 2) (font : Nat → BitVec 8)
    (x y : Int) (c : Nat) {sizeX sizeY : Nat} (hsx : 0 < sizeX ∧ sizeX < 256)
    (hsy : 0 < sizeY ∧ sizeY < 256) :
    (∀ u v, d.inBounds u v → (d.drawChar font x y c color bg sizeX sizeY).getPixel u v =
      if rect x y (6 * sizeX) (8 * sizeY) (u, v) then
        ink color bg (glyph font (d.fontIndex c) ((u - x).toNat / sizeX) ((v - y).toNat / sizeY))
          (d.getPixel u v)
      else d.getPixel u v) ∧
    ∀ a, d.WIDTH * ((d.HEIGHT + 7) / 8) ≤ a →
      (d.drawChar font x y c color bg sizeX sizeY).buffer a = d.buffer a :=
  have hdraws := draws_char hd hc hbg font x y c hsx hsy
  ⟨hdraws.pixel, fun _ ha => hdraws.outside hd.width_pos ha⟩

/-- Twice as large, half outside a turned screen. -/
theorem char_drawn_clipped :
    (∀ u v, ((construct 128 32 fun _ => 0).setRotation 3).inBounds u v →
      (((construct 128 32 fun _ => 0).setRotation 3).drawChar (fun _ => 0x7F) 26 (-8) 65 1 0 2
        2).getPixel u v =
      if rect 26 (-8) (6 * 2) (8 * 2) (u, v) then
        ink 1 0 (glyph (fun _ => 0x7F) 65 ((u - 26).toNat / 2) ((v + 8).toNat / 2))
          (((construct 128 32 fun _ => 0).setRotation 3).getPixel u v)
      else ((construct 128 32 fun _ => 0).setRotation 3).getPixel u v) ∧
    ∀ a, 512 ≤ a →
      (((construct 128 32 fun _ => 0).setRotation 3).drawChar (fun _ => 0x7F) 26 (-8) 65 1 0 2
        2).buffer a = ((construct 128 32 fun _ => 0).setRotation 3).buffer a :=
  char_drawn (d := (construct 128 32 fun _ => 0).setRotation 3) ⟨by decide, by decide, by decide⟩
    (show 1 ≤ 2 by decide) (show 0 ≤ 2 by decide) (fun _ => 0x7F) 26 (-8) 65
    (show 0 < 2 ∧ 2 < 256 by decide) (show 0 < 2 ∧ 2 < 256 by decide)

/-! ## Strings -/

def columns (d : Display) : Nat := d.width / 6

/-- The cell a pixel is in; the pixels behind the last column are in none. -/
def cellAt (a : Int × Int) (d : Display) : Option Nat :=
  if a.1.toNat < 6 * d.columns then some (a.1.toNat / 6 + a.2.toNat / 8 * d.columns) else none

/-- What the characters of a text make of the pixels. -/
def textPen (font : Nat → BitVec 8) (t : Sheet Nat) (d : Display) : Pen (Int × Int) Bool :=
  fun a b => match (d.cellAt a).bind t with
    | some c => ink d.textcolor d.textbgcolor
        (glyph font (d.fontIndex c) (a.1.toNat % 6) (a.2.toNat % 8)) b
    | none => b

/-- Text of the smallest size, wrapping. -/
structure Typing (d : Display) : Prop extends d.Panel where
  sizeX : d.textsizeX = 1
  sizeY : d.textsizeY = 1
  color_le : d.textcolor ≤ 2
  bg_le : d.textbgcolor ≤ 2
  wraps : d.wrap = true
  six_le : 6 ≤ d.width

/-- The cursor is in front of the cell `k`: on its line or behind the end of the line before. -/
def CursorAt (k : Nat) (d : Display) : Prop :=
  ∃ C L : Nat, d.cursorX = 6 * C ∧ d.cursorY = 8 * L ∧ C ≤ d.columns ∧ C + L * d.columns = k

theorem Draws.setCursor {pen : Pen (Int × Int) Bool} {d d' : Display} (x y : Int)
    (h : (d.setCursor x y).Draws pen d') : d.Draws pen (d'.setCursor d.cursorX d.cursorY) := by
  refine ⟨?_, h.pixel, h.rest⟩
  rw [h.same]
  rfl

/-- A character drawn at a cell. -/
theorem charPen_cell (font : Nat → BitVec 8) (d : Display) (c : Nat) {C L : Nat}
    (hC : C < d.columns) {u v : Int} (huv : d.inBounds u v) (b : Bool) :
    charPen font (6 * C) (8 * L) (d.fontIndex c) d.textcolor d.textbgcolor 1 1 (u, v) b =
      d.textPen font (Sheet.empty.put (C + L * d.columns) [c]) (u, v) b := by
  obtain ⟨hu0, -, hv0, -⟩ := huv
  unfold charPen textPen cellAt
  dsimp only
  by_cases hu : u.toNat < 6 * d.columns
  · rw [if_pos hu, Option.bind_some, Sheet.put_one]
    by_cases hk : u.toNat / 6 + v.toNat / 8 * d.columns = C + L * d.columns
    · obtain ⟨hC', hL'⟩ := Bitmap.address_inj (by omega) hC hk
      rw [if_pos hk, if_pos (by unfold rect; omega), Nat.div_one, Nat.div_one,
        show (u - 6 * C).toNat = u.toNat % 6 by omega,
        show (v - 8 * L).toNat = v.toNat % 8 by omega]
    · rw [if_neg hk, if_neg]
      · rfl
      · rintro ⟨hC', hL'⟩
        apply hk
        rw [show u.toNat / 6 = C by omega, show v.toNat / 8 = L by omega]
  · rw [if_neg hu, if_neg (by unfold rect; omega)]
    rfl

/-- The cursor behind the wrapping, in the column of the cell. -/
theorem wrapped (hd : d.Typing) {k : Nat} (hk : d.CursorAt k)
    (hroom : 8 * (k / d.columns + 1) < 2 ^ 15) :
    ∃ C L : Nat, C < d.columns ∧ C + L * d.columns = k ∧ 8 * L < 2 ^ 15 ∧
      (if d.wrap ∧ d.cursorX + d.textsizeX * 6 > d.width then d.newline else d) =
        d.setCursor (6 * C) (8 * L) := by
  obtain ⟨C, L, hx, hy, hC, hCL⟩ := hk
  have h6 := hd.six_le
  have hn : 0 < d.columns := by unfold columns; omega
  have hL : L ≤ k / d.columns := (Nat.le_div_iff_mul_le hn).2 (by omega)
  rw [hd.wraps, hd.sizeX, hx]
  by_cases hend : C = d.columns
  · have hL' : L + 1 ≤ k / d.columns := (Nat.le_div_iff_mul_le hn).2 (by rw [Nat.add_mul]; omega)
    refine ⟨0, L + 1, hn, by rw [Nat.add_mul]; omega, by omega, ?_⟩
    rw [if_pos ⟨rfl, by unfold columns at hend; omega⟩]
    unfold newline setCursor
    rw [hy, hd.sizeY, toInt16_eq (by omega) (by omega)]
    congr 1
  · refine ⟨C, L, by omega, hCL, by omega, ?_⟩
    rw [if_neg (by unfold columns at hend hC; omega), ← hx, ← hy]
    rfl

/-- One character at its cell; the cursor wraps first where no column is left. -/
theorem draws_write (hd : d.Typing) (font : Nat → BitVec 8) {c k : Nat} (hc : c ≠ 10 ∧ c ≠ 13)
    (hk : d.CursorAt k) (hroom : 8 * (k / d.columns + 1) < 2 ^ 15) :
    ∃ d', d.Draws (d.textPen font (Sheet.empty.put k [c])) d' ∧
      ∃ x y, d.write font c = d'.setCursor x y ∧ (d'.setCursor x y).CursorAt (k + 1) := by
  obtain ⟨C, L, hC, hCL, hL, hwrap⟩ := wrapped hd hk hroom
  have hw := hd.toPanel.screen_lt.1
  have hdraws := draws_char (d := d.setCursor (6 * C) (8 * L))
    ⟨hd.width_pos, hd.width_lt, hd.height_lt⟩ hd.color_le hd.bg_le font (6 * C) (8 * L) c
    (show 0 < d.textsizeX ∧ d.textsizeX < 256 by rw [hd.sizeX]; decide)
    (show 0 < d.textsizeY ∧ d.textsizeY < 256 by rw [hd.sizeY]; decide)
  obtain ⟨e, he⟩ : ∃ e, e = drawChar font (6 * C) (8 * L) c d.textcolor d.textbgcolor d.textsizeX
    d.textsizeY (d.setCursor (6 * C) (8 * L)) := ⟨_, rfl⟩
  rw [← he] at hdraws
  have hx : e.cursorX = 6 * C := by rw [hdraws.same]; rfl
  have hs : e.textsizeX = 1 := by rw [hdraws.same]; exact hd.sizeX
  have hwrite : d.write font c = { e with cursorX := 6 * ((C + 1 : Nat) : Int) } := by
    calc d.write font c = { e with cursorX := toInt16 (e.cursorX + e.textsizeX * 6) } := by
          unfold write
          rw [if_neg hc.1, if_pos hc.2, hwrap, he]
          rfl
      _ = { e with cursorX := 6 * ((C + 1 : Nat) : Int) } := by
          unfold columns at hC
          rw [hx, hs, toInt16_eq (by omega) (by omega)]
          congr 1
  refine ⟨_, (hdraws.setCursor _ _).congr fun u v huv b => ?_, 6 * ((C + 1 : Nat) : Int), 8 * L,
    ?_, ?_⟩
  · rw [← hCL, hd.sizeX, hd.sizeY]
    exact charPen_cell font d c hC huv b
  · rw [hwrite, hdraws.same]
    rfl
  · rw [hdraws.same]
    exact ⟨C + 1, L, rfl, rfl, hC, by change C + 1 + L * d.columns = k + 1; omega⟩

theorem Draws.typing {pen : Pen (Int × Int) Bool} {d d' : Display} (h : d.Draws pen d')
    (hd : d.Typing) (x y : Int) : (d'.setCursor x y).Typing := by
  rw [h.same]
  exact ⟨⟨hd.width_pos, hd.width_lt, hd.height_lt⟩, hd.sizeX, hd.sizeY, hd.color_le, hd.bg_le,
    hd.wraps, hd.six_le⟩

theorem Draws.textPen_eq {pen : Pen (Int × Int) Bool} {d d' : Display} (h : d.Draws pen d')
    (x y : Int) (font : Nat → BitVec 8) (t : Sheet Nat) :
    (d'.setCursor x y).textPen font t = d.textPen font t := by
  rw [h.same]
  rfl

/-- A string written into free cells. -/
theorem textPen_put (d : Display) (font : Nat → BitVec 8) {t : Sheet Nat} {k : Nat} {s : List Nat}
    (hfree : ∀ i, k ≤ i ∧ i < k + s.length → t i = none) (a : Int × Int) (b : Bool) :
    (d.textPen font t).andThen (d.textPen font (Sheet.empty.put k s)) a b =
      d.textPen font (t.put k s) a b := by
  unfold Pen.andThen textPen
  cases d.cellAt a with
  | none => rfl
  | some i =>
    simp only [Option.bind_some]
    by_cases hin : k ≤ i ∧ i < k + s.length
    · rw [hfree i hin, Sheet.put, Sheet.put, if_pos hin, if_pos hin]
    · rw [Sheet.put_outside hin, Sheet.put_outside hin]
      rfl

/-- A string fills the cells from the cursor on, whatever lines it takes. -/
theorem draws_print (hd : d.Typing) (font : Nat → BitVec 8) {s : List Nat} {k : Nat}
    (hs : ∀ c ∈ s, c ≠ 10 ∧ c ≠ 13) (hk : d.CursorAt k)
    (hroom : 8 * ((k + s.length) / d.columns + 1) < 2 ^ 15) :
    ∃ d', d.Draws (d.textPen font (Sheet.empty.put k s)) d' ∧
      ∃ x y, d.print font s = d'.setCursor x y ∧ (d'.setCursor x y).CursorAt (k + s.length) := by
  induction s generalizing d k with
  | nil =>
    refine ⟨d, Draws.nothing d fun u v _ b => ?_, d.cursorX, d.cursorY, rfl, hk⟩
    unfold textPen
    rw [Sheet.put_nil]
    cases d.cellAt (u, v) <;> rfl
  | cons c s ih =>
    rw [List.length_cons, show k + (s.length + 1) = k + 1 + s.length by omega] at hroom ⊢
    have hmono : k / d.columns ≤ (k + 1 + s.length) / d.columns := Nat.div_le_div_right (by omega)
    obtain ⟨d₁, hdraws, x, y, hwrite, hk'⟩ := draws_write hd font (hs c (by simp)) hk (by omega)
    have hcols : (d₁.setCursor x y).columns = d.columns := by rw [hdraws.same]; rfl
    obtain ⟨d₂, hdraws', x', y', hprint, hk''⟩ := ih (hdraws.typing hd x y)
      (fun c' hc' => hs c' (by simp [hc'])) hk' (by rwa [hcols])
    rw [hdraws.textPen_eq] at hdraws'
    refine ⟨_, (hdraws.trans (hdraws'.setCursor x y)).congr fun u v huv b => ?_, x', y', ?_, hk''⟩
    · rw [Sheet.put_cons k c s]
      exact textPen_put d font (fun i hi => by rw [Sheet.put_one, if_neg (by omega)]; rfl) (u, v) b
    · unfold print at hprint ⊢
      rw [List.foldl_cons, hwrite, hprint]
      rfl

/-- `println` behind the text only moves the cursor. -/
theorem draws_println (hd : d.Typing) (font : Nat → BitVec 8) {s : List Nat} {k : Nat}
    (hs : ∀ c ∈ s, c ≠ 10 ∧ c ≠ 13) (hk : d.CursorAt k)
    (hroom : 8 * ((k + s.length) / d.columns + 1) < 2 ^ 15) :
    ∃ d', d.Draws (d.textPen font (Sheet.empty.put k s)) d' ∧
      ∃ x y, d.println font s = d'.setCursor x y := by
  obtain ⟨d', hdraws, x, y, hprint, -⟩ := draws_print hd font hs hk hroom
  refine ⟨d', hdraws, 0,
    toInt16 ((d'.setCursor x y).cursorY + (d'.setCursor x y).textsizeY * 8), ?_⟩
  rw [println, hprint]
  rfl

end Display

end BuptCar
