import BuptCar.Board
import BuptCar.Lib.Bitmap

/-!
# `Adafruit_SSD1306.cpp`: the frame buffer

`Display` is the part of the display object that drawing and printing read and write, the members of
`Adafruit_GFX` included. `_width` and `_height` follow from the rotation, which only `setRotation`
writes. Coordinates are `int16_t`, in arithmetic on `int`; `toInt16` is the conversion back where a
result may be too large. The panel is at most 255 pixels wide and high (`uint8_t` in the
constructors).
-/

namespace BuptCar

def SSD1306_BLACK : Nat := 0
def SSD1306_WHITE : Nat := 1
def SSD1306_INVERSE : Nat := 2

def toInt16 (n : Int) : Int := (BitVec.ofInt 16 n).toInt

structure Display where
  WIDTH : Nat
  HEIGHT : Nat
  rotation : Nat
  buffer : Bitmap
  cursorX : Int
  cursorY : Int
  textsizeX : Nat
  textsizeY : Nat
  textcolor : Nat
  textbgcolor : Nat
  wrap : Bool
  cp437 : Bool

/-- A `switch (color)` on the bits of a mask. -/
def colorByte (color : Nat) (mask byte : BitVec 8) : BitVec 8 :=
  if color = SSD1306_WHITE then byte ||| mask
  else if color = SSD1306_BLACK then byte &&& ~~~mask
  else if color = SSD1306_INVERSE then byte ^^^ mask
  else byte

namespace Display

/-- The constructors; `begin` allocates the buffer. `display(-1)` is the deprecated one, which takes
the size 128 by 32 from `Adafruit_SSD1306.h`. -/
def construct (w h : Nat) (buffer : Bitmap) : Display where
  WIDTH := w
  HEIGHT := h
  rotation := 0
  buffer := buffer
  cursorX := 0
  cursorY := 0
  textsizeX := 1
  textsizeY := 1
  textcolor := 0xFFFF
  textbgcolor := 0xFFFF
  wrap := true
  cp437 := false

def setRotation (x : Nat) (d : Display) : Display := { d with rotation := x % 4 }

/-- `_width` -/
def width (d : Display) : Nat := if d.rotation = 1 ∨ d.rotation = 3 then d.HEIGHT else d.WIDTH

/-- `_height` -/
def height (d : Display) : Nat := if d.rotation = 1 ∨ d.rotation = 3 then d.WIDTH else d.HEIGHT

/-! ## Pixels -/

/-- The rotation of `drawPixel` and `getPixel`; the coordinates are in bounds. -/
def rotate (x y : Int) (d : Display) : Int × Int :=
  match d.rotation with
  | 1 => (d.WIDTH - y - 1, x)
  | 2 => (d.WIDTH - x - 1, d.HEIGHT - y - 1)
  | 3 => (y, d.HEIGHT - x - 1)
  | _ => (x, y)

def inBounds (x y : Int) (d : Display) : Prop := 0 ≤ x ∧ x < d.width ∧ 0 ≤ y ∧ y < d.height

instance (x y : Int) (d : Display) : Decidable (d.inBounds x y) :=
  inferInstanceAs (Decidable (_ ∧ _))

def drawPixel (x y : Int) (color : Nat) (d : Display) : Display :=
  if d.inBounds x y then
    let x' := (d.rotate x y).1.toNat
    let y' := (d.rotate x y).2.toNat
    { d with
      buffer := d.buffer.modify (x' + y' / 8 * d.WIDTH) (colorByte color (1 <<< (y' % 8))) }
  else d

def getPixel (x y : Int) (d : Display) : Bool :=
  if d.inBounds x y then
    let x' := (d.rotate x y).1.toNat
    let y' := (d.rotate x y).2.toNat
    decide (d.buffer (x' + y' / 8 * d.WIDTH) &&& (1 <<< (y' % 8) : BitVec 8) ≠ 0)
  else false

/-- `memset` over the pages of the buffer. -/
def clearDisplay (d : Display) : Display :=
  { d with buffer := fun a => if a < d.WIDTH * ((d.HEIGHT + 7) / 8) then 0 else d.buffer a }

/-! ## Lines -/

/-- `while (w--) *pBuf++ …` -/
def fillRow (f : BitVec 8 → BitVec 8) : Nat → Nat → Bitmap → Bitmap
  | 0, _, b => b
  | w + 1, p, b => fillRow f w (p + 1) (b.modify p f)

def drawFastHLineInternal (x y w : Int) (color : Nat) (d : Display) : Display :=
  if 0 ≤ y ∧ y < d.HEIGHT then
    -- clip left, then right
    let w := if x < 0 then toInt16 (w + x) else w
    let x := if x < 0 then 0 else x
    let w := if x + w > d.WIDTH then d.WIDTH - x else w
    if 0 < w then
      let y := y.toNat
      { d with
        buffer := fillRow (colorByte color (1 <<< (y % 8))) w.toNat
          (y / 8 * d.WIDTH + x.toNat) d.buffer }
    else d
  else d

def premask : List (BitVec 8) := [0x00, 0x80, 0xC0, 0xE0, 0xF0, 0xF8, 0xFC, 0xFE]

def postmask : List (BitVec 8) := [0x00, 0x01, 0x03, 0x07, 0x0F, 0x1F, 0x3F, 0x7F]

/-- What the solid part of a vertical line does to a byte: any other color than black and inverse is
white. -/
def solidByte (color : Nat) (byte : BitVec 8) : BitVec 8 :=
  if color = SSD1306_INVERSE then byte ^^^ 0xFF
  else if color ≠ SSD1306_BLACK then 255 else 0

/-- The loop over the solid bytes of `h` rows: the address behind them, the rows left, the buffer.
-/
def fillSolid (f : BitVec 8 → BitVec 8) (W : Nat) (p h : Nat) (b : Bitmap) : Nat × Nat × Bitmap :=
  if 8 ≤ h then fillSolid f W (p + W) (h - 8) (b.modify p f) else (p, h, b)
termination_by h

/-- `drawFastVLineInternal` behind its clipping, in the byte registers `y` and `h`. -/
def drawVBytes (x y h color W : Nat) (b : Bitmap) : Bitmap :=
  let p := y / 8 * W + x
  let mod := y % 8
  -- the first partial byte
  let mod := if mod ≠ 0 then 8 - mod else 0
  let mask := premask[mod]!
  let mask := if h < mod then mask &&& 0xFF >>> (mod - h) else mask
  let b := if mod ≠ 0 then b.modify p (colorByte color mask) else b
  let p := if mod ≠ 0 then p + W else p
  if mod ≤ h then
    let (p, h, b) := fillSolid (solidByte color) W p (h - mod) b
    -- the final partial byte
    if h ≠ 0 then b.modify p (colorByte color postmask[h % 8]!) else b
  else b

def drawFastVLineInternal (x y h : Int) (color : Nat) (d : Display) : Display :=
  if 0 ≤ x ∧ x < d.WIDTH then
    -- clip top, then bottom
    let h := if y < 0 then toInt16 (h + y) else h
    let y := if y < 0 then 0 else y
    let h := if y + h > d.HEIGHT then d.HEIGHT - y else h
    if 0 < h then
      { d with
        buffer := drawVBytes x.toNat (y.toNat % 256) (h.toNat % 256) color d.WIDTH d.buffer }
    else d
  else d

def drawFastHLine (x y w : Int) (color : Nat) (d : Display) : Display :=
  match d.rotation with
  | 1 => d.drawFastVLineInternal (toInt16 (d.WIDTH - y - 1)) x w color
  | 2 =>
    d.drawFastHLineInternal (toInt16 (toInt16 (d.WIDTH - x - 1) - (w - 1)))
      (toInt16 (d.HEIGHT - y - 1)) w color
  | 3 =>
    d.drawFastVLineInternal y (toInt16 (toInt16 (d.HEIGHT - x - 1) - (w - 1))) w color
  | _ => d.drawFastHLineInternal x y w color

def drawFastVLine (x y h : Int) (color : Nat) (d : Display) : Display :=
  match d.rotation with
  | 1 =>
    d.drawFastHLineInternal (toInt16 (toInt16 (d.WIDTH - y - 1) - (h - 1))) x h color
  | 2 =>
    d.drawFastVLineInternal (toInt16 (d.WIDTH - x - 1))
      (toInt16 (toInt16 (d.HEIGHT - y - 1) - (h - 1))) h color
  | 3 => d.drawFastHLineInternal y (toInt16 (d.HEIGHT - x - 1)) h color
  | _ => d.drawFastVLineInternal x y h color

/-! ## The bus -/

/-- The bytes between a `beginTransmission` and its `endTransmission`. -/
abbrev Transmission : Type := List (BitVec 8)

/-- The loop over the bytes to send; `bytesOut` is the length of the open transmission. -/
def wireWrite (control : BitVec 8) (WIRE_MAX : Nat) :
    Transmission → List (BitVec 8) → List Transmission
  | opened, [] => [opened]
  | opened, byte :: bytes =>
    if opened.length ≥ WIRE_MAX then
      opened :: wireWrite control WIRE_MAX [control, byte] bytes
    else wireWrite control WIRE_MAX (opened ++ [byte]) bytes

def ssd1306_command1 (c : BitVec 8) : List Transmission := [[0x00, c]]

def ssd1306_commandList (WIRE_MAX : Nat) (c : List (BitVec 8)) : List Transmission :=
  wireWrite 0x00 WIRE_MAX [0x00] c

/-- The init sequence of `begin`; `external` says whether the supply is `SSD1306_EXTERNALVCC`. -/
def initSequence (WIRE_MAX : Nat) (external : Bool) (d : Display) : List Transmission :=
  let comPins := if d.WIDTH = 128 ∧ d.HEIGHT = 64 then 0x12 else 0x02
  let contrast :=
    if d.WIDTH = 128 ∧ d.HEIGHT = 64 then if external then 0x9F else 0xCF
    else if d.WIDTH = 96 ∧ d.HEIGHT = 16 then if external then 0x10 else 0xAF
    else 0x8F
  ssd1306_commandList WIRE_MAX [0xAE, 0xD5, 0x80, 0xA8] ++
    ssd1306_command1 (BitVec.ofNat 8 (d.HEIGHT - 1)) ++
    ssd1306_commandList WIRE_MAX [0xD3, 0x00, 0x40, 0x8D] ++
    ssd1306_command1 (if external then 0x10 else 0x14) ++
    ssd1306_commandList WIRE_MAX [0x20, 0x00, 0xA1, 0xC8] ++
    ssd1306_command1 0xDA ++ ssd1306_command1 comPins ++
    ssd1306_command1 0x81 ++ ssd1306_command1 contrast ++
    ssd1306_command1 0xD9 ++ ssd1306_command1 (if external then 0x22 else 0xF1) ++
    ssd1306_commandList WIRE_MAX [0xDB, 0x40, 0xA4, 0xA6, 0x2E, 0xAF]

/-- `count` bytes from `buffer` on. -/
def bufferBytes (d : Display) : List (BitVec 8) :=
  (List.range (d.WIDTH * ((d.HEIGHT + 7) / 8))).map d.buffer

/-- `WIRE_MAX` is at least 32. -/
def display (WIRE_MAX : Nat) (d : Display) : List Transmission :=
  ssd1306_commandList WIRE_MAX [0x22, 0, 0xFF, 0x21, 0] ++
    ssd1306_command1 (BitVec.ofNat 8 (d.WIDTH - 1)) ++
    wireWrite 0x40 WIRE_MAX [0x40] d.bufferBytes

end Display

end BuptCar
