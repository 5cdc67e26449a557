import BuptCar.Adafruit.SSD1306

/-!
# `Adafruit_GFX.cpp`: lines and text

The functions of the base class as the display inherits them: `writePixel` and `writeFastVLine` are
the display's own `drawPixel` and `drawFastVLine`. The lines of the base class, which the display
overrides, are in the namespace `Gfx`. The classic font is the table `font`, five columns to a
character; no custom font is set.
-/

namespace BuptCar

namespace Display

/-! ## Bresenham's lines -/

/-- The loop of `writeLine`, with the number of columns left to draw. -/
def writeLineLoop (steep : Bool) (dx dy ystep : Int) (color : Nat) :
    Nat → Int → Int → Int → Display → Display
  | 0, _, _, _, d => d
  | n + 1, x0, y0, err, d =>
    let d := if steep then d.drawPixel y0 x0 color else d.drawPixel x0 y0 color
    let err := toInt16 (err - dy)
    if err < 0 then
      writeLineLoop steep dx dy ystep color n (x0 + 1) (toInt16 (y0 + ystep)) (toInt16 (err + dx)) d
    else writeLineLoop steep dx dy ystep color n (x0 + 1) y0 err d

/-- The line ends before column 32767. -/
def writeLine (x0 y0 x1 y1 : Int) (color : Nat) (d : Display) : Display :=
  let steep := decide ((y1 - y0).natAbs > (x1 - x0).natAbs)
  let (x0, y0) := if steep then (y0, x0) else (x0, y0)
  let (x1, y1) := if steep then (y1, x1) else (x1, y1)
  let (x0, x1, y0, y1) := if x0 > x1 then (x1, x0, y1, y0) else (x0, x1, y0, y1)
  let dx := toInt16 (x1 - x0)
  let dy := toInt16 (y1 - y0).natAbs
  let ystep := if y0 < y1 then 1 else -1
  d.writeLineLoop steep dx dy ystep color (x1 + 1 - x0).toNat x0 y0 (dx.tdiv 2)

namespace Gfx

def drawFastVLine (x y h : Int) (color : Nat) (d : Display) : Display :=
  d.writeLine x y x (toInt16 (y + h - 1)) color

def drawFastHLine (x y w : Int) (color : Nat) (d : Display) : Display :=
  d.writeLine x y (toInt16 (x + w - 1)) y color

end Gfx

/-! ## Text -/

def setTextSize (s : Nat) (d : Display) : Display :=
  { d with textsizeX := if 0 < s then s else 1, textsizeY := if 0 < s then s else 1 }

def setTextColor (c bg : Nat) (d : Display) : Display :=
  { d with textcolor := c, textbgcolor := bg }

def setCursor (x y : Int) (d : Display) : Display := { d with cursorX := x, cursorY := y }

/-- `x + w` fits in `int16_t`. -/
def fillRect (x y w h : Int) (color : Nat) (d : Display) : Display :=
  (List.range w.toNat).foldl
    (fun (d : Display) (i : Nat) => d.drawFastVLine (x + i) y h color) d

/-- One dot of a character of the given magnification. -/
def drawDot (x y : Int) (sizeX sizeY color : Nat) (d : Display) : Display :=
  if sizeX = 1 ∧ sizeY = 1 then d.drawPixel x y color else d.fillRect x y sizeX sizeY color

variable (font : Nat → BitVec 8)

/-- The column `i` of a character; the loop shifts `line` right by one each time. -/
def drawCharColumn (x y : Int) (c i color bg sizeX sizeY : Nat) (d : Display) : Display :=
  let line := font (c * 5 + i)
  (List.range 8).foldl (fun (d : Display) (j : Nat) =>
    if line >>> j &&& 1 ≠ 0 then d.drawDot (x + i * sizeX) (y + j * sizeY) sizeX sizeY color
    else if bg ≠ color then d.drawDot (x + i * sizeX) (y + j * sizeY) sizeX sizeY bg
    else d) d

/-- Behind the clipping all coordinates fit in `int16_t`. -/
def drawChar (x y : Int) (c color bg sizeX sizeY : Nat) (d : Display) : Display :=
  if x ≥ d.width ∨ y ≥ d.height ∨ x + 6 * sizeX - 1 < 0 ∨ y + 8 * sizeY - 1 < 0 then d
  else
    let c := if !d.cp437 ∧ c ≥ 176 then (c + 1) % 256 else c
    let d := (List.range 5).foldl
      (fun d i => d.drawCharColumn font x y c i color bg sizeX sizeY) d
    -- the opaque last column
    if bg ≠ color then
      if sizeX = 1 ∧ sizeY = 1 then d.drawFastVLine (x + 5) y 8 bg
      else d.fillRect (x + 5 * sizeX) y sizeX (8 * sizeY) bg
    else d

def newline (d : Display) : Display :=
  { d with cursorX := 0, cursorY := toInt16 (d.cursorY + d.textsizeY * 8) }

def write (d : Display) (c : Nat) : Display :=
  if c = 10 then d.newline
  else if c ≠ 13 then
    let d := if d.wrap ∧ d.cursorX + d.textsizeX * 6 > d.width then d.newline else d
    let d := d.drawChar font d.cursorX d.cursorY c d.textcolor d.textbgcolor d.textsizeX d.textsizeY
    { d with cursorX := toInt16 (d.cursorX + d.textsizeX * 6) }
  else d

/-- `Print::print(const char[])`, on the bytes of the string. -/
def print (str : List Nat) (d : Display) : Display := str.foldl (write font) d

/-- `Print::println(const char[])` ends with a carriage return and a newline. -/
def println (str : List Nat) (d : Display) : Display := print font [13, 10] (d.print font str)

end Display

end BuptCar
