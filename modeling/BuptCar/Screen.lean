import BuptCar.Dep.Oled
import BuptCar.Task2

/-!
# What the program shows

The calls of `oled.h` in the order of the program: `setupCalls` and `task2Calls` before the endless
loops, `Car.oledCalls` in one step of control.
-/

namespace BuptCar

open OledCall

def colorLookupArray : List Text :=
  ["RED".toList, "GREEN".toList, "BLUE".toList, "YELLOW".toList, "EMPTY".toList]

def setupCalls : List OledCall := oledCountdown "Booting".toList 1

/-- `setupBlankColor` -/
def blankCalls (blankRGB : Rgb UInt16) : List OledCall :=
  [.clear, printVal blankRGB.r.toNat "rawR".toList 0, printVal blankRGB.g.toNat "rawG".toList 1,
    printVal blankRGB.b.toNat "rawB".toList 2, .flush]

/-- `prepareCCD` -/
def prepareCalls (bestRecord : ExplosureRecord) : List OledCall :=
  [.clear, printVal bestRecord.explosureTime "expl".toList 0,
    printVal bestRecord.avgVal "parting avg".toList 1, .flush, .clear]

/-- `Task2` up to its endless loop. -/
def task2Calls (p : Prelude) : List OledCall :=
  let (c, cameraIsBlocked) := Car.calibrate p
  blankCalls c.blankRGB ++ prepareCalls c.bestRecord ++
    [.print (if cameraIsBlocked then "BT MODE".toList else "TRACK MODE".toList) 1, .flush]

namespace Car

/-- The end of `processCCD`'s binarisation. -/
def countCalls (c : Car) : List OledCall :=
  let (blackNum, whiteNum, _) := c.ccd.parseBinaryVals
  [printVals "bl".toList blackNum "wh".toList whiteNum 2]

/-- The first switch of `autoTrack`. -/
def statusText : Status → Text
  | .normal => "TRACKING".toList
  | .noTrack => "!!!NOTRACK".toList
  | .platform => "!!!PLATFORM".toList

/-- `getRGB` -/
def rgbCalls (inp : Inputs) (c : Car) : List OledCall :=
  let rgb := getColor inp.rawBuff
  let color := (getRGB inp.rawBuff c.blankRGB).getD inp.undef
  [.clear, printVal (relativeVal rgb.r c.blankRGB.r) "R".toList 0,
    printVal (relativeVal rgb.g c.blankRGB.g) "G".toList 1,
    printVal (relativeVal rgb.b c.blankRGB.b) "B".toList 2,
    .print (colorLookupArray.getD color.toNat []) 3, .flush]

/-- The location at a platform. -/
def locationCalls (c : Car) : List OledCall :=
  [.clear, printVal (c.location + 1) "Location".toList 1, .flush]

/-- The case `STATUS_PLATFORM`, up to the frame thrown away. -/
def platformCalls (inp : Inputs) (c : Car) : List OledCall :=
  c.locationCalls ++ oledCountdown "Capturing".toList 1 ++ c.rgbCalls inp

/-- The head of an iteration, up to the second switch of `autoTrack`, with what that switch is
given. -/
def headCalls (inp : Inputs) (c : Car) : List OledCall × Car × Status :=
  let prevTimeMs := (c.getTime inp.millis).1
  let (substractedExplosureTime, initStarting, c) := c.beginLoop inp
  let (c, _, trackStatus) :=
    c.sense c.bestRecord.explosureTime substractedExplosureTime initStarting inp
  ([.clear] ++
    (if prevTimeMs = -1 then []
      else [printVals "std".toList c.bestRecord.explosureTime "frm".toList prevTimeMs 0]) ++
    c.countCalls ++ [.print (statusText trackStatus) 1], c, trackStatus)

/-- One iteration of the tracking loop; in the default case of `autoTrack` its last call,
`oledFlush`, is never reached. -/
def trackingCalls (inp : Inputs) (c : Car) : List OledCall :=
  let (head, c, trackStatus) := c.headCalls inp
  head ++
    match trackStatus with
    | .normal => [.flush]
    | .platform => c.platformCalls inp
    | .noTrack => []

def discardCalls (inp : Inputs) (c : Car) : List OledCall :=
  (c.processCCD c.bestRecord.explosureTime true 0 inp).1.countCalls

/-- With a track the loop around `autoTrack` flushes once more. -/
def awaitCalls (inp : Inputs) (c : Car) : List OledCall :=
  let (c, _, trackStatus) := c.processCCD c.bestRecord.explosureTime true 0 inp
  c.countCalls ++ [.flush] ++ if trackStatus = .normal then [.flush] else []

def btCalls (inp : Inputs) (c : Car) : List OledCall :=
  if !c.connected && inp.btConnected then oledPrintAndFlush "CONNECTED!".toList 1 else []

def oledCalls (inp : Inputs) (c : Car) : List OledCall :=
  match c.control with
  | .btMode => c.btCalls inp
  | .tracking => c.trackingCalls inp
  | .discarding => c.discardCalls inp
  | .leaving => c.awaitCalls inp
  | .halted => []

end Car

end BuptCar
