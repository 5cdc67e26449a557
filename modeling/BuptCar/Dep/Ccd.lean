import BuptCar.Dep.Math
import Mathlib.Data.List.Range

/-!
# `dep/ccd.h`

The line sensor: capture, threshold, line detection, the calibration of the exposure time and the
classification of a frame during tracking. `Ccd` holds the globals. What only the debug output
reads (`binaryOnehotData`, the printing functions) is left out, and the exposure times, which
reach no computation here, are the subject of the event trace (`Dep/AutoTrack.lean`).
-/

namespace BuptCar

inductive Status
  | normal
  | noTrack
  | platform
  deriving DecidableEq, Repr

def cNumPixels : Nat := 128
def cCountStart : Nat := 15
def cCountEnd : Nat := 126

def cEffectiveLineWidthMin : Int := 10

def cExplosureTimeStart : Int := 60
def cExplosureTimeEnd : Int := 140
def cExplosureTimePropagation : Int := 10

def cMinMaxRatioDeltaBlocked : ℚ := 6 / 10

/-- What one capture reads: 128 samples of the 12-bit converter. -/
abbrev Frame := Fin cNumPixels → Fin 4096

structure Ccd where
  linearData : Nat → Int
  binaryData : Nat → Bool
  lastAvailableAverage : Int

structure ExplosureRecord where
  minVal : Int
  maxVal : Int
  avgVal : Int
  explosureTime : Int
  isValid : Bool
  contrast : ℚ
  deriving DecidableEq, Repr

/-- The pixels of the loops `for (int i = cCountStart; i <= cCountEnd; i++)`. -/
@[irreducible] def window : List Nat := List.range' cCountStart (cCountEnd + 1 - cCountStart)

namespace Ccd

/-- The static buffers are zero-initialised. -/
def boot : Ccd where
  linearData := fun _ => 0
  binaryData := fun _ => false
  lastAvailableAverage := 0

/-- `captrueCCD`: every element of `linearData` is read anew. -/
def captrueCCD (frame : Frame) (c : Ccd) : Ccd :=
  { c with linearData := fun i => if h : i < cNumPixels then (frame ⟨i, h⟩ : Nat) else 0 }

/-- One iteration of `parseLinearVals` on `(minVal, maxVal)`. -/
def parseLinearStep (linearData : Nat → Int) (m : Int × Int) (i : Nat) : Int × Int :=
  let currentVal := linearData i
  (if currentVal < m.1 then currentVal else m.1, if m.2 < currentVal then currentVal else m.2)

/-- `(minVal, maxVal, avgVal)`. -/
def parseLinearVals (c : Ccd) : Int × Int × Int :=
  let m := window.foldl (parseLinearStep c.linearData) (1000000, 0)
  (m.1, m.2, customRound (((m.1 + m.2 : Int) : ℚ) / 2))

/-- `(blackNum, whiteNum, totalNum)`. -/
def parseBinaryVals (c : Ccd) : Int × Int × Int :=
  let n := window.foldl (fun (n : Int × Int) i =>
    if c.binaryData i then (n.1 + 1, n.2) else (n.1, n.2 + 1)) (0, 0)
  (n.1, n.2, n.1 + n.2)

def linearToBinary (minVal maxVal : Int) (partingAvg : Int) (c : Ccd) : Ccd :=
  let partingAvg := if partingAvg = 0 then (minVal + maxVal).tdiv 2 else partingAvg
  { c with binaryData := fun i =>
      if cCountStart ≤ i ∧ i ≤ cCountEnd then decide (c.linearData i < partingAvg) else false }

/-- The locals of the loop in `getTrackMidPixel`. -/
structure TrackScan where
  accumulatedDarkPixel : Int
  trackLeftPixel : Int
  trackRightPixel : Int
  deriving DecidableEq, Repr

/-- The loop of `getTrackMidPixel` over the pixels still to come; it ends early (`break`) behind a
dark run that is wide enough. -/
def scanTrack (binaryData : Nat → Bool) : List Nat → TrackScan → TrackScan
  | [], s => s
  | i :: is, s =>
    if binaryData i = true then
      scanTrack binaryData is { s with
        trackLeftPixel := if s.trackLeftPixel = -1 then i else s.trackLeftPixel
        accumulatedDarkPixel := s.accumulatedDarkPixel + 1 }
    else if customRound cEffectiveLineWidthMin ≤ s.accumulatedDarkPixel then
      { s with trackRightPixel := i - 1 }
    else
      scanTrack binaryData is { s with accumulatedDarkPixel := 0, trackLeftPixel := -1 }

def getTrackMidPixel (c : Ccd) : Int :=
  let s := scanTrack c.binaryData window ⟨0, -1, -1⟩
  let trackLeftPixel := s.trackLeftPixel
  -- the run reaches the end of the window
  let trackRightPixel :=
    if s.trackRightPixel = -1 ∧ customRound cEffectiveLineWidthMin ≤ s.accumulatedDarkPixel then
      (cCountEnd : Int)
    else s.trackRightPixel
  if trackLeftPixel = -1 ∨ trackRightPixel = -1 then -1
  else if (trackRightPixel - trackLeftPixel).tmod 2 = 0 then
    customRound (((trackRightPixel + trackLeftPixel : Int) : ℚ) / 2)
  else
    let trackMidPixelCandidate1 :=
      customRound (((trackRightPixel + trackLeftPixel - 1 : Int) : ℚ) / 2)
    let trackMidPixelCandidate2 := trackMidPixelCandidate1 + 1
    if c.linearData trackMidPixelCandidate1.toNat < c.linearData trackMidPixelCandidate2.toNat then
      trackMidPixelCandidate1
    else trackMidPixelCandidate2

/-! ## Calibration -/

def recordSize : Nat :=
  ((cExplosureTimeEnd - cExplosureTimeStart).tdiv cExplosureTimePropagation + 1).toNat

def testedTime (i : Nat) : Int := cExplosureTimeStart + cExplosureTimePropagation * i

/-- The binarisation and line detection of the calibration path on the captured frame. -/
def calibrateFrame (c : Ccd) : Ccd :=
  let (minVal, maxVal, _) := c.parseLinearVals
  c.linearToBinary minVal maxVal 0

/-- Iteration `i` of the first loop of `getBestExplosureTime`: the record and the globals after
it. The first capture of the pair is overwritten by the second. -/
def testExplosure (i : Nat) (resetFrame frame : Frame) (c : Ccd) : ExplosureRecord × Ccd :=
  let c := (c.captrueCCD resetFrame).captrueCCD frame
  let (thisMinVal, thisMaxVal, thisAvgVal) := c.parseLinearVals
  let thisContrast : ℚ := if thisMaxVal = 0 then 1 else (thisMinVal : ℚ) / thisMaxVal
  let c := c.calibrateFrame
  let trackMidPixel := c.getTrackMidPixel
  ({ minVal := thisMinVal, maxVal := thisMaxVal, avgVal := thisAvgVal
     explosureTime := testedTime i
     isValid := decide (trackMidPixel ≠ -1), contrast := thisContrast }, c)

/-- The first loop over the iterations `is`. -/
def testExplosures (frames : Nat → Frame × Frame) :
    List Nat → Ccd → List ExplosureRecord × Ccd
  | [], c => ([], c)
  | i :: is, c =>
    let r := testExplosure i (frames i).1 (frames i).2 c
    let rs := testExplosures frames is r.2
    (r.1 :: rs.1, rs.2)

/-- The locals of the second loop of `getBestExplosureTime`. -/
structure Selection where
  bestRecord : ExplosureRecord
  minContrast : ℚ
  maxContrast : ℚ

def selectRecord (s : Selection) (thisRecord : ExplosureRecord) : Selection :=
  if thisRecord.isValid = false then s
  else
    let s := if thisRecord.contrast < s.minContrast then
        { s with
          minContrast := thisRecord.contrast
          bestRecord :=
            { explosureTime := thisRecord.explosureTime, minVal := thisRecord.minVal
              maxVal := thisRecord.maxVal, avgVal := thisRecord.avgVal, isValid := true
              contrast := thisRecord.contrast } }
      else s
    if s.maxContrast < thisRecord.contrast then { s with maxContrast := thisRecord.contrast }
    else s

/-- The second loop and the output: the new `bestRecord` and `cameraIsBlocked`. -/
def selectBest (records : List ExplosureRecord) (bestRecord : ExplosureRecord) :
    ExplosureRecord × Bool :=
  let s := records.foldl selectRecord ⟨{ bestRecord with isValid := false }, 1, 0⟩
  let cameraIsBlocked := !s.bestRecord.isValid ||
    decide (s.minContrast < 2 / 100 ∧ s.maxContrast - s.minContrast > cMinMaxRatioDeltaBlocked)
  (s.bestRecord, cameraIsBlocked)

/-- What `getBestExplosureTime` leaves: its two reference parameters and the globals. -/
structure Calibration where
  bestRecord : ExplosureRecord
  cameraIsBlocked : Bool
  ccd : Ccd

/-- The second half of `getBestExplosureTime`, on what its first loop left. -/
def concludeCalibration (r : List ExplosureRecord × Ccd) (bestRecord : ExplosureRecord) :
    Calibration :=
  let b := selectBest r.1 bestRecord
  { bestRecord := b.1, cameraIsBlocked := b.2, ccd := r.2 }

/-- `frames i` are the two captures of iteration `i`. -/
def getBestExplosureTime (frames : Nat → Frame × Frame) (bestRecord : ExplosureRecord) (c : Ccd) :
    Calibration :=
  concludeCalibration (testExplosures frames (List.range recordSize) c) bestRecord

/-! ## Tracking -/

/-- What `processCCD` leaves: the globals and its two reference parameters. -/
structure Processed where
  ccd : Ccd
  trackMidPixel : Int
  tracingStatus : Status

/-- `processCCD` behind its captures. -/
def classify (trackMidPixel : Int) (c : Ccd) : Processed :=
  let (minVal, maxVal, avgVal) := c.parseLinearVals
  let c := c.linearToBinary minVal maxVal c.lastAvailableAverage
  let (blackNum, _, totalNum) := c.parseBinaryVals
  if toInt ((totalNum : ℚ) * (7 / 10)) < blackNum then ⟨c, trackMidPixel, .platform⟩
  else
    let trackMidPixel := c.getTrackMidPixel
    if trackMidPixel = -1 then ⟨c, trackMidPixel, .noTrack⟩
    else
      ⟨{ c with lastAvailableAverage := avgVal },
        customRound (Arduino.map trackMidPixel cCountStart cCountEnd 0 128), .normal⟩

/-- `processCCD`: two captures with `resetAndExplosure`, the second of which is used, one
without. -/
def processCCD (trackMidPixel : Int) (resetAndExplosure : Bool) (resetFrame frame : Frame)
    (c : Ccd) : Processed :=
  let c := if resetAndExplosure then (c.captrueCCD resetFrame).captrueCCD frame
    else c.captrueCCD frame
  c.classify trackMidPixel

end Ccd

end BuptCar
