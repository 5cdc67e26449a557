import BuptCar.Dep.Oled
import BuptCar.Lib.Machine
import BuptCar.Proof.Bus
import BuptCar.Proof.Text

/-!
# The display as a screen of texts

`Texts` is what the functions of `oled.h` are for: a screen of character cells and the screens shown
so far. A text at a row writes its characters over those of the row and leaves the others; `clear`
empties the screen. The display and the bytes on its bus follow it along every run (`oled_run`).
-/

namespace BuptCar

structure Texts where
  text : Sheet Nat
  shown : List (Sheet Nat)

namespace Texts

/-- Rows of `n` columns; a longer text goes on in the next one. -/
def call (n : Nat) (s : Texts) : OledCall → Texts
  | .clear => { s with text := Sheet.empty }
  | .print str row => { s with text := s.text.put (row.toNat * n) (cString str) }
  | .flush => { s with shown := s.shown ++ [s.text] }

/-- The greeting of `initOled`. -/
def greeted : Texts where
  text := Sheet.empty.put 0 (cString "Setup is OK".toList)
  shown := [Sheet.empty, Sheet.empty.put 0 (cString "Setup is OK".toList)]

end Texts

def oledMachine (font : Nat → BitVec 8) (WIRE_MAX : Nat) (d : Display) : Machine Oled OledCall :=
  ⟨Oled.initOled font WIRE_MAX d, Oled.call font WIRE_MAX⟩

def textMachine (n : Nat) : Machine Texts OledCall := ⟨Texts.greeted, Texts.call n⟩

/-- A text without a line break. -/
def OneLine (str : Text) : Prop := '\n' ∉ str ∧ '\r' ∉ str

instance (str : Text) : Decidable (OneLine str) := inferInstanceAs (Decidable (_ ∧ _))

theorem oneLine_append {s t : Text} : OneLine (s ++ t) ↔ OneLine s ∧ OneLine t := by
  simp only [OneLine, List.mem_append, not_or]
  exact and_and_and_comm

/-- The rows are those of the panel, the texts fit in the buffer of `sprintf` and have no line
break. -/
def OledCall.Fits : OledCall → Prop
  | .print str row => (0 ≤ row ∧ row < 32) ∧ str.length < 100 ∧ OneLine str
  | _ => True

namespace Display

variable {font : Nat → BitVec 8} {d d' : Display}

/-- White on black, as `initOled` leaves it. -/
structure Lettering (d : Display) : Prop extends d.Typing where
  white : d.textcolor = SSD1306_WHITE
  black : d.textbgcolor = SSD1306_BLACK

theorem ink_white (bit b : Bool) : ink SSD1306_WHITE SSD1306_BLACK bit b = bit := by
  cases bit <;> rfl

theorem textPen_empty (d : Display) (a : Int × Int) (b : Bool) :
    d.textPen font Sheet.empty a b = b := by
  unfold textPen
  cases d.cellAt a <;> rfl

/-- A text over another one. -/
theorem textPen_over (hd : d.Lettering) (t : Sheet Nat) (k : Nat) (s : List Nat) (a : Int × Int)
    (b : Bool) : d.textPen font (Sheet.empty.put k s) a (d.textPen font t a b) =
      d.textPen font (t.put k s) a b := by
  unfold textPen
  cases d.cellAt a with
  | none => rfl
  | some i =>
    simp only [Option.bind_some, hd.white, hd.black, ink_white]
    by_cases hin : k ≤ i ∧ i < k + s.length
    · rw [Sheet.put, Sheet.put, if_pos hin, if_pos hin]
      cases hs : s[i - k]? with
      | some c => rfl
      | none =>
        rw [List.getElem?_eq_none_iff] at hs
        omega
    · rw [Sheet.put_outside hin, Sheet.put_outside hin]
      rfl

/-- The picture a panel of this size and rotation makes of the bytes. -/
def pictured (bytes : List (BitVec 8)) (d : Display) : Display :=
  { d with buffer := fun a => bytes.getD a 0 }

theorem address_lt {x y : Int} (h : d.inBounds x y) :
    (d.rotate x y).1.toNat + (d.rotate x y).2.toNat / 8 * d.WIDTH <
      d.WIDTH * ((d.HEIGHT + 7) / 8) := by
  have hb := rotate_bounds h
  have hpage : ((d.rotate x y).2.toNat / 8 + 1) * d.WIDTH ≤ (d.HEIGHT + 7) / 8 * d.WIDTH :=
    Nat.mul_le_mul_right _ (by omega)
  rw [Nat.add_mul, Nat.mul_comm ((d.HEIGHT + 7) / 8)] at hpage
  omega

theorem getD_bufferBytes {a : Nat} (ha : a < d.WIDTH * ((d.HEIGHT + 7) / 8)) :
    d.bufferBytes.getD a 0 = d.buffer a := by
  simp [bufferBytes, ha]

/-- The panel shows what the buffer had. -/
theorem getPixel_pictured {x y : Int} (h : d.inBounds x y) :
    (d.pictured d.bufferBytes).getPixel x y = d.getPixel x y := by
  rw [getPixel_eq h, getPixel_eq (d := d.pictured d.bufferBytes) h]
  unfold Bitmap.pixel
  rw [← getD_bufferBytes (address_lt h)]
  rfl

theorem getPixel_clearDisplay {x y : Int} (h : d.inBounds x y) :
    d.clearDisplay.getPixel x y = false := by
  have hzero : d.clearDisplay.buffer
      ((d.rotate x y).1.toNat + (d.rotate x y).2.toNat / 8 * d.WIDTH) = 0 := if_pos (address_lt h)
  rw [getPixel_eq (d := d.clearDisplay) h]
  exact (congrArg (BitVec.getLsbD · ((d.rotate x y).2.toNat % 8)) hzero).trans BitVec.getLsbD_zero

end Display

/-- The relation between the two levels; `d` has the settings of the display. -/
structure Agrees (font : Nat → BitVec 8) (d : Display) (s : Oled) (t : Texts) : Prop where
  same : s.display = { d with
    buffer := s.display.buffer, cursorX := s.display.cursorX, cursorY := s.display.cursorY }
  text : ∀ u v, d.inBounds u v → s.display.getPixel u v = d.textPen font t.text (u, v) false
  shown : List.Forall₂ (fun ts τ => ∀ u v, d.inBounds u v →
    (d.pictured (Display.received 0x40 ts)).getPixel u v = d.textPen font τ (u, v) false)
    s.sent t.shown

namespace Agrees

variable {font : Nat → BitVec 8} {d : Display} {s : Oled} {t : Texts}

theorem of_clear (hsame : s.display = { d with
      buffer := s.display.buffer, cursorX := s.display.cursorX, cursorY := s.display.cursorY })
    {shown : List (Sheet Nat)}
    (hshown : List.Forall₂ (fun ts τ => ∀ u v, d.inBounds u v →
      (d.pictured (Display.received 0x40 ts)).getPixel u v = d.textPen font τ (u, v) false)
      s.sent shown) : Agrees font d s.oledClear ⟨Sheet.empty, shown⟩ := by
  refine ⟨?_, fun u v huv => ?_, hshown⟩
  · unfold Oled.oledClear Display.clearDisplay
    rw [hsame]
  · have huv' : s.display.inBounds u v := by rw [hsame]; exact huv
    rw [Display.textPen_empty]
    exact Display.getPixel_clearDisplay huv'

theorem flush (h : Agrees font d s t) {WIRE_MAX : Nat} (hW : 2 ≤ WIRE_MAX) :
    Agrees font d (s.oledFlush WIRE_MAX) { t with shown := t.shown ++ [t.text] } := by
  refine ⟨h.same, h.text, List.rel_append h.shown (.cons (fun u v huv => ?_) .nil)⟩
  rw [Display.received_picture hW, ← h.text u v huv]
  have huv' : s.display.inBounds u v := by rw [h.same]; exact huv
  rw [← Display.getPixel_pictured huv', h.same]
  rfl

theorem typing (hd : d.Lettering) (h : Agrees font d s t) (x y : Int) :
    (s.display.setCursor x y).Typing := by
  rw [h.same]
  exact ⟨⟨hd.width_pos, hd.width_lt, hd.height_lt⟩, hd.sizeX, hd.sizeY, hd.color_le, hd.bg_le,
    hd.wraps, hd.six_le⟩

theorem textPen_eq (h : Agrees font d s t) (x y : Int) (τ : Sheet Nat) :
    (s.display.setCursor x y).textPen font τ = d.textPen font τ := by
  rw [h.same]
  rfl

theorem cString_printable {str : Text} (hstr : OneLine str) :
    ∀ c ∈ cString str, c ≠ 10 ∧ c ≠ 13 := by
  intro n hn
  obtain ⟨c, hc, rfl⟩ := List.mem_map.1 hn
  have h1 : c ≠ '\n' := ne_of_mem_of_not_mem hc hstr.1
  have h2 : c ≠ '\r' := ne_of_mem_of_not_mem hc hstr.2
  exact ⟨fun h => h1 (Char.toNat_inj.1 h), fun h => h2 (Char.toNat_inj.1 h)⟩

theorem println (hd : d.Lettering) (h : Agrees font d s t) {str : Text} {row : Nat}
    (hrow : row < 32) (hlen : str.length < 100) (hstr : OneLine str) :
    Agrees font d
      { s with display := (s.display.setCursor 0 (8 * row)).println font (cString str) }
      { t with text := t.text.put (row * d.columns) (cString str) } := by
  have hcols : (s.display.setCursor 0 (8 * row)).columns = d.columns := by rw [h.same]; rfl
  have h6 := hd.six_le
  have hn : 0 < d.columns := by unfold Display.columns; omega
  have hcursor : (s.display.setCursor 0 (8 * row)).CursorAt (row * d.columns) :=
    ⟨0, row, rfl, rfl, Nat.zero_le _, by rw [hcols, Nat.zero_add]⟩
  have hlines : (row * d.columns + (cString str).length) / d.columns ≤ row + 100 := by
    rw [Nat.add_comm, Nat.add_mul_div_right _ _ hn, cString, List.length_map]
    have := Nat.div_le_self str.length d.columns
    omega
  obtain ⟨d', hdraws, x, y, hprint⟩ := Display.draws_println (h.typing hd 0 (8 * row)) font
    (cString_printable hstr) hcursor (by rw [hcols]; omega)
  rw [h.textPen_eq] at hdraws
  rw [hprint]
  refine ⟨?_, fun u v huv => ?_, h.shown⟩
  · have hsame := hdraws.same
    rw [h.same] at hsame
    rw [hsame]
    rfl
  · have huv' : (s.display.setCursor 0 (8 * row)).inBounds u v := by rw [h.same]; exact huv
    rw [← Display.textPen_over hd, ← h.text u v huv]
    exact hdraws.pixel u v huv'

theorem print (hd : d.Lettering) (h : Agrees font d s t) {str : Text} {row : Int}
    (hfits : (OledCall.print str row).Fits) :
    Agrees font d (s.oledPrint font str row)
      { t with text := t.text.put (row.toNat * d.columns) (cString str) } := by
  obtain ⟨⟨h0, h32⟩, hlen, hstr⟩ := hfits
  obtain ⟨n, rfl⟩ := Int.eq_ofNat_of_zero_le h0
  unfold Oled.oledPrint cLineSpacing
  rw [Display.toInt16_eq (by omega) (by omega)]
  exact h.println hd (by omega) hlen hstr

theorem call (hd : d.Lettering) {WIRE_MAX : Nat} (hW : 2 ≤ WIRE_MAX) (h : Agrees font d s t)
    {c : OledCall} (hc : c.Fits) :
    Agrees font d (s.call font WIRE_MAX c) (t.call d.columns c) := by
  cases c with
  | clear => exact of_clear h.same h.shown
  | print str row => exact h.print hd hc
  | flush => exact h.flush hW

end Agrees

/-- The settings `initOled` leaves. -/
def lettered (d : Display) : Display := (d.setTextSize 1).setTextColor SSD1306_WHITE SSD1306_BLACK

theorem lettered_lettering {d : Display} (hd : d.Panel) (h6 : 6 ≤ d.width) (hwrap : d.wrap = true) :
    (lettered d).Lettering where
  toPanel := ⟨hd.width_pos, hd.width_lt, hd.height_lt⟩
  sizeX := rfl
  sizeY := rfl
  color_le := show SSD1306_WHITE ≤ 2 by decide
  bg_le := show SSD1306_BLACK ≤ 2 by decide
  wraps := hwrap
  six_le := h6
  white := rfl
  black := rfl

open Agrees in
/-- Whatever `begin` left in the buffer, the greeting is on an empty screen. -/
theorem initOled_agrees {font : Nat → BitVec 8} {WIRE_MAX : Nat} (hW : 2 ≤ WIRE_MAX) {d : Display}
    (hd : (lettered d).Lettering) :
    Agrees font (lettered d) (Oled.initOled font WIRE_MAX d) Texts.greeted := by
  have hclear : Agrees font (d.setTextSize 1)
      (Oled.oledClear ⟨(d.setTextSize 1).setCursor 0 0, []⟩) ⟨Sheet.empty, []⟩ :=
    of_clear (d := d.setTextSize 1) (s := ⟨(d.setTextSize 1).setCursor 0 0, []⟩) rfl .nil
  have hflush := hclear.flush hW
  unfold Oled.initOled
  dsimp only
  generalize Oled.oledFlush WIRE_MAX
    (Oled.oledClear ⟨(d.setTextSize 1).setCursor 0 0, []⟩) = s at hflush ⊢
  have hcolor : Agrees font (lettered d)
      { s with display := s.display.setTextColor SSD1306_WHITE SSD1306_BLACK }
      ⟨Sheet.empty, [Sheet.empty]⟩ := by
    -- on an empty screen no color shows
    refine ⟨?_, fun u v huv => ?_, ?_⟩
    · rw [hflush.same]
      rfl
    · have htext := hflush.text u v huv
      rw [Display.textPen_empty] at htext ⊢
      exact htext
    · obtain ⟨ts, l, hts, hl, hsent⟩ := List.forall₂_cons_right_iff.1 hflush.shown
      rw [List.forall₂_nil_right_iff] at hl
      subst hl
      change List.Forall₂ _ s.sent _
      rw [hsent]
      refine .cons (fun u v huv => ?_) .nil
      have hempty := hts u v huv
      rw [Display.textPen_empty] at hempty ⊢
      exact hempty
  have hgreet := hcolor.println hd (show 0 < 32 by decide)
    (show "Setup is OK".toList.length < 100 by decide) (by decide)
  rw [Nat.zero_mul] at hgreet
  exact hgreet.flush hW

/-- Along every run of calls the display shows the texts, and what the bus carried at each flush is
the picture of the texts at that time. -/
theorem oled_run {font : Nat → BitVec 8} {WIRE_MAX : Nat} (hW : 2 ≤ WIRE_MAX) {d : Display}
    (hd : d.Panel) (h6 : 6 ≤ d.width) (hwrap : d.wrap = true) {calls : List OledCall}
    (hfits : ∀ c ∈ calls, c.Fits) :
    Agrees font (lettered d) ((oledMachine font WIRE_MAX d).run calls)
      ((textMachine (lettered d).columns).run calls) := by
  have hl := lettered_lettering hd h6 hwrap
  exact Machine.runFrom_congr_mem (fun s t c hc h => h.call hl hW (hfits c hc))
    (initOled_agrees hW hl)

/-- A long text over a greeting, and a short one over its second line. -/
theorem oled_run_wrapped :
    Agrees (fun _ => 0) (lettered (Display.construct 128 32 fun _ => 0))
      ((oledMachine (fun _ => 0) 128 (Display.construct 128 32 fun _ => 0)).run
        [.print "more than twenty-one letters".toList 0, .print "TRACKING".toList 1, .flush])
      ((textMachine (lettered (Display.construct 128 32 fun _ => 0)).columns).run
        [.print "more than twenty-one letters".toList 0, .print "TRACKING".toList 1, .flush]) :=
  oled_run (by decide) ⟨by decide, by decide, by decide⟩ (by decide) rfl
    (List.forall_mem_cons.2 ⟨⟨by decide, by decide, by decide⟩,
      List.forall_mem_cons.2 ⟨⟨by decide, by decide, by decide⟩,
        List.forall_mem_singleton.2 trivial⟩⟩)

end BuptCar
