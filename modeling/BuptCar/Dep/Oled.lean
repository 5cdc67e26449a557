import BuptCar.Adafruit.GFX
import BuptCar.Lib.Python

/-!
# `dep/oled.h`

A call is one of the three things the functions of `oled.h` do to the display; `Oled` is the display
with what was sent to the panel, one entry to a flush. `sprintf` writes to a buffer of 100 bytes, so
the texts are shorter.
-/

namespace BuptCar

def cLineSpacing : Int := 8

inductive OledCall
  | clear
  | print (str : Text) (row : Int)
  | flush

namespace OledCall

/-- `oledPrint(const int val, const char* hint, const int row)`: `"%s: %d"`. -/
def printVal (val : Int) (hint : Text) (row : Int) : OledCall :=
  print (hint ++ [':', ' '] ++ showInt val) row

/-- `oledPrint` with two values: `"%s: %d  %s: %d"`. -/
def printVals (hint1 : Text) (i1 : Int) (hint2 : Text) (i2 : Int) (row : Int) : OledCall :=
  print (hint1 ++ [':', ' '] ++ showInt i1 ++ [' ', ' '] ++ hint2 ++ [':', ' '] ++ showInt i2) row

def oledPrintAndFlush (str : Text) (row : Int) : List OledCall := [clear, print str row, flush]

/-- The delays are left out. -/
def oledCountdown (hint : Text) (row : Int) : List OledCall :=
  oledPrintAndFlush (hint ++ ['.']) row ++ oledPrintAndFlush (hint ++ ['.', '.']) row ++
    oledPrintAndFlush (hint ++ ['.', '.', '.']) row

end OledCall

/-- The bytes of a C string. -/
def cString (str : Text) : List Nat := str.map Char.toNat

structure Oled where
  display : Display
  sent : List (List Display.Transmission)

namespace Oled

variable (font : Nat → BitVec 8) (WIRE_MAX : Nat)

def oledClear (s : Oled) : Oled := { s with display := s.display.clearDisplay }

def oledPrint (str : Text) (row : Int) (s : Oled) : Oled :=
  { s with
    display := (s.display.setCursor 0 (toInt16 (cLineSpacing * row))).println font (cString str) }

def oledFlush (s : Oled) : Oled := { s with sent := s.sent ++ [s.display.display WIRE_MAX] }

def call (s : Oled) : OledCall → Oled
  | .clear => s.oledClear
  | .print str row => s.oledPrint font str row
  | .flush => s.oledFlush WIRE_MAX

/-- `initOled` behind `display.begin`, which leaves `d`. -/
def initOled (d : Display) : Oled :=
  let s : Oled := ⟨(d.setTextSize 1).setCursor 0 0, []⟩
  let s := s.oledClear.oledFlush WIRE_MAX
  let display := (s.display.setTextColor SSD1306_WHITE SSD1306_BLACK).setCursor 0 0
  let s := { s with display := display.println font (cString "Setup is OK".toList) }
  s.oledFlush WIRE_MAX

end Oled

end BuptCar
