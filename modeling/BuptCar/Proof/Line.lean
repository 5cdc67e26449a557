import BuptCar.Lib.Runs
import BuptCar.Proof.Frames

/-!
# Line detection

The loop of `getTrackMidPixel` is the loop `findRun` on the dark pixels of the window
(`scanTrack_ends`), so what it returns is the middle of the first dark run that is wide enough
(`getTrackMidPixel_spec`). In the calibration image such a run forces `minVal < maxVal`.
-/

namespace BuptCar.Ccd

/-- A maximal dark run within the window, wide enough for a line. -/
structure WideRun (binaryData : Nat → Bool) (l r : Nat) : Prop where
  isRun : IsRun binaryData cCountStart cCountEnd l r
  wide : cEffectiveLineWidthMin ≤ ((r + 1 - l : Nat) : Int)

/-- The middle of the run `[l, r]`; of two central pixels the darker one, the right one on a tie. -/
def midPixel (linearData : Nat → Int) (l r : Nat) : Nat :=
  if (r + 1 - l) % 2 = 1 then (l + r) / 2
  else if linearData ((l + r) / 2) < linearData ((l + r) / 2 + 1) then (l + r) / 2
  else (l + r) / 2 + 1

theorem midPixel_mem (linearData : Nat → Int) {l r : Nat} (h : l ≤ r) :
    l ≤ midPixel linearData l r ∧ midPixel linearData l r ≤ r := by
  unfold midPixel
  split
  · omega
  · split <;> omega

/-! ## The loop -/

/-- The ends of the line in the locals behind the loop. -/
def Ends (s : TrackScan) : Option (Nat × Nat) → Prop
  | none => s.trackRightPixel = -1 ∧ s.accumulatedDarkPixel < cEffectiveLineWidthMin
  | some (l, r) => s.trackLeftPixel = l ∧ (s.trackRightPixel = r ∨
      s.trackRightPixel = -1 ∧ cEffectiveLineWidthMin ≤ s.accumulatedDarkPixel ∧ r = cCountEnd)

/-- The locals before pixel `i`, where the current run began at `start`. -/
def scanAt (start i : Nat) : TrackScan where
  accumulatedDarkPixel := ((i - start : Nat) : Int)
  trackLeftPixel := if start = i then -1 else start
  trackRightPixel := -1

section
variable (binaryData : Nat → Bool)

theorem scanAt_wide {start i : Nat} :
    cEffectiveLineWidthMin ≤ (scanAt start i).accumulatedDarkPixel ↔ 10 ≤ i - start := by
  show (10 : Int) ≤ ((i - start : Nat) : Int) ↔ _
  omega

/-- A dark pixel extends the run. -/
theorem scanAt_dark {start i : Nat} (hs : start ≤ i) :
    { scanAt start i with
      trackLeftPixel :=
        if (scanAt start i).trackLeftPixel = -1 then (i : Int)
        else (scanAt start i).trackLeftPixel
      accumulatedDarkPixel := (scanAt start i).accumulatedDarkPixel + 1 } =
      scanAt start (i + 1) := by
  simp only [scanAt, TrackScan.mk.injEq, and_true]
  refine ⟨by omega, ?_⟩
  split
  · split <;> omega
  · split <;> omega

/-- A light pixel behind a narrow run starts a new one. -/
theorem scanAt_light (start i : Nat) :
    { scanAt start i with accumulatedDarkPixel := 0, trackLeftPixel := -1 } =
      scanAt (i + 1) (i + 1) := by
  simp [scanAt]

/-- A run that reaches the end of the window. -/
theorem scanAt_ends {start i : Nat} (hi : i = cCountEnd + 1) :
    Ends (scanAt start i) (findRun binaryData 10 start i 0) := by
  rw [findRun]
  by_cases hw : 10 ≤ i - start
  · rw [if_pos hw]
    exact ⟨if_neg (by omega), .inr ⟨rfl, scanAt_wide.2 hw, by omega⟩⟩
  · rw [if_neg hw]
    exact ⟨rfl, not_le.1 fun h => hw (scanAt_wide.1 h)⟩

theorem scanTrack_ends {start i n : Nat} (hs : start ≤ i) (hn : i + n = cCountEnd + 1) :
    Ends (scanTrack binaryData (List.range' i n) (scanAt start i))
      (findRun binaryData 10 start i n) := by
  induction n generalizing start i with
  | zero => exact scanAt_ends binaryData hn
  | succ n ih =>
    rw [List.range'_succ, scanTrack, findRun]
    cases hp : binaryData i with
    | true =>
      rw [if_pos rfl, if_pos rfl, scanAt_dark hs]
      exact ih (by omega) (by omega)
    | false =>
      rw [if_neg Bool.false_ne_true, if_neg Bool.false_ne_true, customRound_intCast]
      by_cases hw : 10 ≤ i - start
      · rw [if_pos (scanAt_wide.2 hw), if_pos hw]
        exact ⟨if_neg (by omega), .inl (by show (i : Int) - 1 = ((i - 1 : Nat) : Int); omega)⟩
      · rw [if_neg fun h => hw (scanAt_wide.1 h), if_neg hw, scanAt_light]
        exact ih (Nat.le_refl _) (by omega)

end

/-! ## The result -/

/-- The first line of an image: the ends of the leftmost wide run. -/
def firstLine (c : Ccd) : Option (Nat × Nat) :=
  findRun c.binaryData 10 cCountStart cCountStart (cCountEnd + 1 - cCountStart)

theorem firstLine_found (c : Ccd) : Found c.binaryData cCountStart cCountEnd 10 c.firstLine :=
  findRun_spec (by decide) .init (by decide)

/-- The right end of the line, behind the window's end. -/
def rightEnd (s : TrackScan) : Int :=
  if s.trackRightPixel = -1 ∧ customRound cEffectiveLineWidthMin ≤ s.accumulatedDarkPixel then
    (cCountEnd : Int)
  else s.trackRightPixel

/-- What `getTrackMidPixel` returns for the ends of a line. -/
def midOfEnds (linearData : Nat → Int) (trackLeftPixel trackRightPixel : Int) : Int :=
  if trackLeftPixel = -1 ∨ trackRightPixel = -1 then -1
  else if (trackRightPixel - trackLeftPixel).tmod 2 = 0 then
    customRound (((trackRightPixel + trackLeftPixel : Int) : ℚ) / 2)
  else
    let trackMidPixelCandidate1 :=
      customRound (((trackRightPixel + trackLeftPixel - 1 : Int) : ℚ) / 2)
    let trackMidPixelCandidate2 := trackMidPixelCandidate1 + 1
    if linearData trackMidPixelCandidate1.toNat < linearData trackMidPixelCandidate2.toNat then
      trackMidPixelCandidate1
    else trackMidPixelCandidate2

theorem getTrackMidPixel_eq_midOfEnds (c : Ccd) : c.getTrackMidPixel =
    midOfEnds c.linearData (scanTrack c.binaryData window ⟨0, -1, -1⟩).trackLeftPixel
      (rightEnd (scanTrack c.binaryData window ⟨0, -1, -1⟩)) := rfl

theorem midOfEnds_natCast (linearData : Nat → Int) {l r : Nat} (h : l ≤ r) :
    midOfEnds linearData l r = (midPixel linearData l r : Int) := by
  unfold midOfEnds midPixel
  have hmod : ((r : Int) - l).tmod 2 = 0 ↔ (r + 1 - l) % 2 = 1 := by
    rw [Int.tmod_eq_emod_of_nonneg (by omega)]
    omega
  rw [if_neg (by omega), customRound_half (by omega)]
  by_cases hodd : (r + 1 - l) % 2 = 1
  · rw [if_pos (hmod.2 hodd), if_pos hodd]
    omega
  · rw [if_neg fun h => hodd (hmod.1 h), if_neg hodd, customRound_half (by omega)]
    -- the run has two central pixels, (l + r) / 2 and the next one
    have hmid : ((r : Int) + l - 1) / 2 = (((l + r) / 2 : Nat) : Int) := by omega
    have hnext : ((((l + r) / 2 : Nat) : Int) + 1).toNat = (l + r) / 2 + 1 := by omega
    simp only [hmid, hnext, Int.toNat_natCast]
    split
    · rfl
    · rfl

theorem rightEnd_of_ends {s : TrackScan} {l r : Nat} (h : Ends s (some (l, r))) :
    rightEnd s = r := by
  unfold rightEnd
  rw [customRound_intCast]
  obtain ⟨-, hr | ⟨h1, h2, hr⟩⟩ := h
  · rw [if_neg (by omega), hr]
  · rw [if_pos ⟨h1, h2⟩, hr]

theorem rightEnd_of_none {s : TrackScan} (h : Ends s none) : rightEnd s = -1 := by
  unfold rightEnd
  rw [customRound_intCast, if_neg fun hw => absurd hw.2 (Int.not_le.2 h.2)]
  exact h.1

theorem getTrackMidPixel_eq (c : Ccd) : c.getTrackMidPixel =
    c.firstLine.elim (-1) fun line => (midPixel c.linearData line.1 line.2 : Int) := by
  have hends := scanTrack_ends c.binaryData (Nat.le_refl cCountStart)
    (show cCountStart + 112 = cCountEnd + 1 from rfl)
  have hfound := firstLine_found c
  have hwin : List.range' cCountStart 112 = window := by
    unfold window
    rfl
  have hstart : scanAt cCountStart cCountStart = ⟨0, -1, -1⟩ := rfl
  have hline : findRun c.binaryData 10 cCountStart cCountStart 112 = c.firstLine := rfl
  rw [hwin, hstart, hline] at hends
  rw [getTrackMidPixel_eq_midOfEnds]
  generalize c.firstLine = line at hends hfound
  cases line with
  | none =>
    rw [rightEnd_of_none hends]
    exact if_pos (.inr rfl)
  | some line =>
    rw [rightEnd_of_ends hends, hends.1]
    exact midOfEnds_natCast _ hfound.isRun.nonempty

/-- The outcome of the detection: no run is wide enough, or the middle of the first one. -/
theorem getTrackMidPixel_spec (c : Ccd) :
    (c.getTrackMidPixel = -1 ∧ ∀ j, ¬Stretch c.binaryData cCountStart cCountEnd 10 j) ∨
    ∃ l r, IsFirstRun c.binaryData cCountStart cCountEnd 10 l r ∧
      c.getTrackMidPixel = (midPixel c.linearData l r : Int) := by
  have hfound := firstLine_found c
  rw [getTrackMidPixel_eq]
  cases hline : c.firstLine with
  | none =>
    rw [hline] at hfound
    exact .inl ⟨rfl, hfound⟩
  | some line =>
    rw [hline] at hfound
    exact .inr ⟨line.1, line.2, hfound, rfl⟩

theorem getTrackMidPixel_eq_neg_one_iff (c : Ccd) :
    c.getTrackMidPixel = -1 ↔ ∀ j, ¬Stretch c.binaryData cCountStart cCountEnd 10 j := by
  rcases getTrackMidPixel_spec c with ⟨h, hno⟩ | ⟨l, r, hrun, h⟩
  · exact iff_of_true h hno
  · refine iff_of_false (by omega) fun hno => hno l (hrun.isRun.stretch hrun.wide)

/-- The image's window and the order of neighbouring pixels in it determine the result. -/
theorem getTrackMidPixel_order {c d : Ccd}
    (hb : ∀ i, cCountStart ≤ i → i ≤ cCountEnd → c.binaryData i = d.binaryData i)
    (hl : ∀ i, cCountStart ≤ i → i + 1 ≤ cCountEnd →
      (c.linearData i < c.linearData (i + 1) ↔ d.linearData i < d.linearData (i + 1))) :
    c.getTrackMidPixel = d.getTrackMidPixel := by
  have hline : c.firstLine = d.firstLine :=
    findRun_congr fun j h1 h2 => hb j h1 (by unfold cCountEnd cCountStart at *; omega)
  have hfound := firstLine_found c
  rw [getTrackMidPixel_eq, getTrackMidPixel_eq, ← hline]
  cases hc : c.firstLine with
  | none => rfl
  | some line =>
    rw [hc] at hfound
    obtain ⟨l, r⟩ := line
    have hr : IsRun c.binaryData cCountStart cCountEnd l r := hfound.isRun
    have := hr.lower
    have := hr.upper
    have := hr.nonempty
    have hmid : midPixel c.linearData l r = midPixel d.linearData l r := by
      unfold midPixel
      by_cases hodd : (r + 1 - l) % 2 = 1
      · rw [if_pos hodd, if_pos hodd]
      · rw [if_neg hodd, if_neg hodd]
        simp only [hl ((l + r) / 2) (by omega) (by omega)]
    exact congrArg Int.ofNat hmid

/-- Nothing outside the window is read. -/
theorem getTrackMidPixel_window {c d : Ccd} (h : ∀ i, cCountStart ≤ i → i ≤ cCountEnd →
      c.binaryData i = d.binaryData i ∧ c.linearData i = d.linearData i) :
    c.getTrackMidPixel = d.getTrackMidPixel := by
  refine getTrackMidPixel_order (fun i h1 h2 => (h i h1 h2).1) fun i h1 h2 => ?_
  rw [(h i h1 (by omega)).2, (h (i + 1) (by omega) h2).2]

theorem WideRun.ten_le {binaryData : Nat → Bool} {l r : Nat} (h : WideRun binaryData l r) :
    10 ≤ r + 1 - l := by
  have := h.wide
  unfold cEffectiveLineWidthMin at this
  omega

theorem wideRun_of_first {binaryData : Nat → Bool} {l r : Nat}
    (h : IsFirstRun binaryData cCountStart cCountEnd 10 l r) : WideRun binaryData l r where
  isRun := h.isRun
  wide := by
    have := h.wide
    unfold cEffectiveLineWidthMin
    omega

/-- The leftmost wide run decides what `getTrackMidPixel` returns. -/
theorem getTrackMidPixel_of_leftmost {c : Ccd} {l r : Nat} (h : WideRun c.binaryData l r)
    (hl : ∀ l' r', WideRun c.binaryData l' r' → l ≤ l') :
    c.getTrackMidPixel = (midPixel c.linearData l r : Int) := by
  rcases getTrackMidPixel_spec c with ⟨-, hno⟩ | ⟨l', r', hrun, heq⟩
  · exact absurd (h.isRun.stretch h.ten_le) (hno l)
  · obtain ⟨rfl, rfl⟩ := hrun.eq_of_leftmost h.isRun h.ten_le fun l r hr hw =>
      hl l r ⟨hr, by unfold cEffectiveLineWidthMin; omega⟩
    exact heq

/-- **Line detection.** `getTrackMidPixel` returns -1 iff no maximal dark run of the window is wide
enough, else the middle of the leftmost such run: of two central pixels the darker one, the right
one on a tie. That is a dark pixel of the run, and nothing outside the window influences it. -/
theorem line_detection (c : Ccd) :
    (c.getTrackMidPixel = -1 ↔ ¬∃ l r, WideRun c.binaryData l r) ∧
    (∀ l r, WideRun c.binaryData l r → (∀ l' r', WideRun c.binaryData l' r' → l ≤ l') →
      ((r + 1 - l) % 2 = 1 → c.getTrackMidPixel = ((l + r) / 2 : Nat)) ∧
      ((r + 1 - l) % 2 = 0 → c.getTrackMidPixel =
        if c.linearData ((l + r) / 2) < c.linearData ((l + r) / 2 + 1) then ((l + r) / 2 : Nat)
        else ((l + r) / 2 + 1 : Nat)) ∧
      ∃ m : Nat, c.getTrackMidPixel = m ∧ l ≤ m ∧ m ≤ r ∧ c.binaryData m = true ∧
        cCountStart ≤ m ∧ m ≤ cCountEnd) ∧
    ∀ d : Ccd, (∀ i, cCountStart ≤ i → i ≤ cCountEnd →
        c.binaryData i = d.binaryData i ∧ c.linearData i = d.linearData i) →
      c.getTrackMidPixel = d.getTrackMidPixel := by
  refine ⟨?_, fun l r h hl => ?_, fun d h => ?_⟩
  · rw [getTrackMidPixel_eq_neg_one_iff]
    constructor
    · rintro hno ⟨l, r, h⟩
      exact hno l (h.isRun.stretch h.ten_le)
    · intro hno
      rcases getTrackMidPixel_spec c with ⟨-, h⟩ | ⟨l, r, hrun, -⟩
      · exact h
      · exact absurd ⟨l, r, wideRun_of_first hrun⟩ hno
  · have heq := getTrackMidPixel_of_leftmost h hl
    obtain ⟨h1, h2⟩ := midPixel_mem c.linearData h.isRun.nonempty
    refine ⟨fun hodd => ?_, fun heven => ?_, midPixel c.linearData l r, heq, h1, h2,
      h.isRun.inside _ h1 h2, Nat.le_trans h.isRun.lower h1, Nat.le_trans h2 h.isRun.upper⟩
    · rw [heq, midPixel, if_pos hodd]
    · rw [heq, midPixel, if_neg (by omega)]
  · exact getTrackMidPixel_window h

/-- A detected position lies in the window. -/
theorem getTrackMidPixel_mem {c : Ccd} (h : c.getTrackMidPixel ≠ -1) :
    (cCountStart : Int) ≤ c.getTrackMidPixel ∧ c.getTrackMidPixel ≤ cCountEnd := by
  rcases getTrackMidPixel_spec c with ⟨h1, -⟩ | ⟨l, r, hrun, heq⟩
  · exact absurd h1 h
  · have hr := hrun.isRun
    obtain ⟨h1, h2⟩ := midPixel_mem c.linearData hr.nonempty
    rw [heq]
    exact ⟨Int.ofNat_le.2 (Nat.le_trans hr.lower h1), Int.ofNat_le.2 (Nat.le_trans h2 hr.upper)⟩

/-! ## A track in the calibration image -/

theorem exists_dark_of_track {c : Ccd} (h : c.getTrackMidPixel ≠ -1) :
    ∃ i ∈ window, c.binaryData i = true := by
  rcases getTrackMidPixel_spec c with ⟨h1, -⟩ | ⟨l, r, hrun, -⟩
  · exact absurd h1 h
  · have hr := hrun.isRun
    exact ⟨l, mem_window.2 ⟨hr.lower, Nat.le_trans hr.nonempty hr.upper⟩,
      hr.inside l (Nat.le_refl l) hr.nonempty⟩

/-- A detected track has a dark pixel, which forces the extremes apart. -/
theorem minVal_lt_maxVal {frame : Frame} (h : TrackFound frame) : minVal frame < maxVal frame := by
  obtain ⟨i, hi, hd⟩ := exists_dark_of_track h
  have h1 := minVal_le frame hi
  rw [calibrated_dark, decide_eq_true_eq] at hd
  omega

end BuptCar.Ccd
