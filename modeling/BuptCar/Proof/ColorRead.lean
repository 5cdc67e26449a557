import BuptCar.Dep.Color
import BuptCar.Lib.Machine

/-!
# Reading the colour sensor over I2C

`getColor` fetches the two bytes of a channel in two transactions, and the sensor may replace its
sample between any two of them. `ColorRead` is a call in progress: `now` counts the updates since it
began, `samples t` is the sample behind `t` of them.

A channel is read whole where no update falls between its two transactions (`Whole`); otherwise
there are samples whose bytes are mixed (`torn`). So the readings are the channel's own for all
samples exactly if no update falls there (`readings_whole_iff`).
-/

namespace BuptCar

/-! ## The registers -/

def Rgb.get {α : Type} (c : Rgb α) : Fin 3 → α
  | 0 => c.r
  | 1 => c.g
  | 2 => c.b

def highByte (v : UInt16) : UInt8 := (v >>> 8).toUInt8
def lowByte (v : UInt16) : UInt8 := v.toUInt8

/-- The registers of the sensor: two bytes for each channel, the high byte first. -/
def register (sample : Rgb UInt16) : RawBuff
  | 0 => highByte sample.r
  | 1 => lowByte sample.r
  | 2 => highByte sample.g
  | 3 => lowByte sample.g
  | 4 => highByte sample.b
  | 5 => lowByte sample.b

def highAddr (k : Fin 3) : Fin 6 := ⟨2 * k, by omega⟩
def lowAddr (k : Fin 3) : Fin 6 := ⟨2 * k + 1, by omega⟩

theorem highAddr_val (k : Fin 3) : (highAddr k : Nat) = 2 * k := rfl
theorem lowAddr_val (k : Fin 3) : (lowAddr k : Nat) = 2 * k + 1 := rfl

theorem register_high (sample : Rgb UInt16) (k : Fin 3) :
    register sample (highAddr k) = highByte (sample.get k) := by
  match k with
  | 0 => rfl
  | 1 => rfl
  | 2 => rfl

theorem register_low (sample : Rgb UInt16) (k : Fin 3) :
    register sample (lowAddr k) = lowByte (sample.get k) := by
  match k with
  | 0 => rfl
  | 1 => rfl
  | 2 => rfl

theorem getColor_get (rawBuff : RawBuff) (k : Fin 3) :
    (getColor rawBuff).get k = assemble (rawBuff (highAddr k)) (rawBuff (lowAddr k)) := by
  match k with
  | 0 => rfl
  | 1 => rfl
  | 2 => rfl

/-- The two bytes of a value are assembled to it. -/
theorem assemble_bytes (v : UInt16) : assemble (highByte v) (lowByte v) = v := by
  have hlt : v.toNat < 65536 := v.toNat_lt
  have hhigh : v.toNat >>> 8 % 256 = v.toNat / 256 := by
    rw [Nat.shiftRight_eq_div_pow]
    omega
  have hmask : (v.toNat / 256) <<< 8 &&& 65280 = (v.toNat / 256) <<< 8 := by
    rw [show 65280 = 255 <<< 8 from rfl, ← Nat.shiftLeft_and_distrib,
      show 255 = 2 ^ 8 - 1 from rfl, Nat.and_two_pow_sub_one_of_lt_two_pow (by omega)]
  apply UInt16.toNat_inj.1
  have hnat : (assemble (highByte v) (lowByte v)).toNat =
      (v.toNat >>> 8 % 256) <<< 8 % 65536 &&& 65280 ||| v.toNat % 256 := by
    simp [assemble, highByte, lowByte]
  rw [hnat, hhigh, Nat.mod_eq_of_lt (by rw [Nat.shiftLeft_eq]; omega), hmask,
    ← Nat.shiftLeft_add_eq_or_of_lt (show v.toNat % 256 < 2 ^ 8 by omega), Nat.shiftLeft_eq]
  omega

/-- Every reading is what `getColor` makes of some bytes. -/
theorem getColor_register (sample : Rgb UInt16) : getColor (register sample) = sample := by
  obtain ⟨r, g, b⟩ := sample
  simp only [getColor, register, assemble_bytes]

/-! ## A call in progress -/

structure ColorRead where
  now : Nat
  i : Nat
  rawBuff : RawBuff

/-- The sensor takes a new sample, or `getColor` makes its next transaction. -/
inductive BusTick
  | update
  | requestBuffer
  deriving DecidableEq

namespace ColorRead

/-- `requestBuffer(colorSensorAddr, colorBufferAddr + i, rawBuff + i, 1)`, the sensor holding
`sample`. -/
def requestBuffer (sample : Rgb UInt16) (s : ColorRead) : ColorRead :=
  if h : s.i < 6 then
    { s with
      i := s.i + 1
      rawBuff := Function.update s.rawBuff ⟨s.i, h⟩ (register sample ⟨s.i, h⟩) }
  else s

/-- Updates behind the last transaction are no part of the call. -/
def step (samples : Nat → Rgb UInt16) (s : ColorRead) : BusTick → ColorRead
  | .update => if s.i < 6 then { s with now := s.now + 1 } else s
  | .requestBuffer => s.requestBuffer (samples s.now)

def machine (samples : Nat → Rgb UInt16) : Machine ColorRead BusTick where
  init := { now := 0, i := 0, rawBuff := fun _ => 0 }
  step := step samples

section
variable {sample : Rgb UInt16} {s : ColorRead}

theorem requestBuffer_i (h : s.i < 6) : (s.requestBuffer sample).i = s.i + 1 := by
  rw [requestBuffer, dif_pos h]

theorem requestBuffer_done (h : ¬s.i < 6) : s.requestBuffer sample = s := dif_neg h

@[simp] theorem requestBuffer_now : (s.requestBuffer sample).now = s.now := by
  unfold requestBuffer
  split <;> rfl

/-- The transaction reads the register it is for. -/
theorem requestBuffer_same {a : Fin 6} (h : s.i = a) :
    (s.requestBuffer sample).rawBuff a = register sample a := by
  obtain ⟨a, ha⟩ := a
  obtain rfl : s.i = a := h
  rw [requestBuffer, dif_pos ha]
  exact Function.update_self ..

theorem requestBuffer_of_ne {a : Fin 6} (h : s.i ≠ a) :
    (s.requestBuffer sample).rawBuff a = s.rawBuff a := by
  unfold requestBuffer
  split
  · exact Function.update_of_ne (fun heq => h (by rw [heq])) ..
  · rfl

variable {samples : Nat → Rgb UInt16}

theorem step_update (h : s.i < 6) : step samples s .update = { s with now := s.now + 1 } := if_pos h

theorem step_update_done (h : ¬s.i < 6) : step samples s .update = s := if_neg h

theorem step_requestBuffer :
    step samples s .requestBuffer = s.requestBuffer (samples s.now) := rfl

theorem step_update_i : (step samples s .update).i = s.i := by
  by_cases h : s.i < 6
  · rw [step_update h]
  · rw [step_update_done h]

end

section
variable (samples : Nat → Rgb UInt16)

/-- The number of transactions does not depend on the samples. -/
theorem run_i (ticks : List BusTick) :
    ((machine samples).run ticks).i = min 6 (ticks.count .requestBuffer) := by
  induction ticks using List.reverseRecOn with
  | nil => rfl
  | append_singleton ticks t ih =>
    rw [Machine.run_concat, List.count_append]
    generalize (machine samples).run ticks = s at ih
    cases t with
    | update =>
      show (step samples s .update).i = min 6 (ticks.count .requestBuffer)
      rw [step_update_i, ih]
    | requestBuffer =>
      show (s.requestBuffer _).i = min 6 (ticks.count .requestBuffer + 1)
      by_cases h : s.i < 6
      · rw [requestBuffer_i h]
        omega
      · rw [requestBuffer_done h]
        omega

theorem run_now {ticks : List BusTick} (h : ticks.count .requestBuffer < 6) :
    ((machine samples).run ticks).now = ticks.count .update := by
  induction ticks using List.reverseRecOn with
  | nil => rfl
  | append_singleton ticks t ih =>
    rw [List.count_append] at h
    have hi := run_i samples ticks
    have ih := ih (by omega)
    rw [Machine.run_concat, List.count_append]
    generalize (machine samples).run ticks = s at ih hi
    cases t with
    | update =>
      show (step samples s .update).now = ticks.count .update + 1
      rw [step_update (by omega), ← ih]
    | requestBuffer =>
      show (s.requestBuffer _).now = ticks.count .update
      rw [requestBuffer_now, ih]

end

/-! ## Whole readings -/

/-- Labels the updates between the two transactions of a channel. -/
def tearing (s : ColorRead) : BusTick → Option Unit
  | .update => if s.i < 6 ∧ s.i % 2 = 1 then some () else none
  | .requestBuffer => none

/-- Each channel read is one of a single sample, and a channel of which only the high byte is read
has not changed since. -/
structure Whole (samples : Nat → Rgb UInt16) (s : ColorRead) : Prop where
  read : ∀ k : Fin 3, 2 * k + 1 < s.i → ∃ t ≤ s.now,
    s.rawBuff (highAddr k) = highByte ((samples t).get k) ∧
      s.rawBuff (lowAddr k) = lowByte ((samples t).get k)
  half : ∀ k : Fin 3, s.i = 2 * k + 1 →
    s.rawBuff (highAddr k) = highByte ((samples s.now).get k)

theorem Whole.step {samples : Nat → Rgb UInt16} {s : ColorRead} (h : Whole samples s)
    {t : BusTick} (ht : tearing s t = none) : Whole samples (ColorRead.step samples s t) := by
  obtain ⟨hread, hhalf⟩ := h
  cases t with
  | update =>
    by_cases hi : s.i < 6
    · have heven : ¬s.i % 2 = 1 := by
        intro hodd
        simp [tearing, hi, hodd] at ht
      rw [step_update hi]
      refine ⟨fun k hk => ?_, fun k hk => ?_⟩
      · obtain ⟨t, hle, hbytes⟩ := hread k hk
        exact ⟨t, Nat.le_succ_of_le hle, hbytes⟩
      · have hk : s.i = 2 * k + 1 := hk
        omega
    · rw [step_update_done hi]
      exact ⟨hread, hhalf⟩
  | requestBuffer =>
    rw [step_requestBuffer]
    by_cases hi : s.i < 6
    · refine ⟨fun k hk => ?_, fun k hk => ?_⟩
      · rw [requestBuffer_i hi] at hk
        have hne : s.i ≠ highAddr k := by
          rw [highAddr_val]
          omega
        rw [requestBuffer_now, requestBuffer_of_ne hne]
        by_cases hlow : s.i = 2 * k + 1
        · -- the low byte is that of the sample the high byte was taken from
          refine ⟨s.now, Nat.le_refl _, hhalf k hlow, ?_⟩
          rw [requestBuffer_same (hlow.trans (lowAddr_val k).symm), register_low]
        · rw [requestBuffer_of_ne (by rwa [lowAddr_val])]
          exact hread k (by omega)
      · rw [requestBuffer_i hi] at hk
        have heq : s.i = highAddr k := by
          rw [highAddr_val]
          omega
        rw [requestBuffer_now, requestBuffer_same heq, register_high]
    · rw [requestBuffer_done hi]
      exact ⟨hread, hhalf⟩

theorem whole_run (samples : Nat → Rgb UInt16) {ticks : List BusTick}
    (h : (machine samples).labels tearing ticks = []) :
    Whole samples ((machine samples).run ticks) := by
  refine Machine.run_invariant_unlabelled (M := machine samples) ?_ (fun s t ht hs => hs.step ht) h
  refine ⟨fun k hk => ?_, fun k hk => ?_⟩
  · exact absurd hk (Nat.not_lt_zero _)
  · have hk : 0 = 2 * (k : Nat) + 1 := hk
    omega

/-! ## Torn readings -/

/-- All channels at the value `v`. -/
def uniform (v : UInt16) : Rgb UInt16 := ⟨v, v, v⟩

theorem get_uniform (v : UInt16) (k : Fin 3) : (uniform v).get k = v := by
  match k with
  | 0 => rfl
  | 1 => rfl
  | 2 => rfl

/-- Black up to the update `n`, both bytes 1 from then on. -/
def jump (n : Nat) (t : Nat) : Rgb UInt16 := if t ≤ n then uniform 0 else uniform 257

theorem register_black (a : Fin 6) : register (uniform 0) a = 0 := by
  match a with
  | 0 | 1 | 2 | 3 | 4 | 5 => rfl

/-- Up to the jump every byte read is 0. -/
theorem black_run (n : Nat) (ticks : List BusTick)
    (h : ((machine (jump n)).run ticks).now ≤ n) :
    ((machine (jump n)).run ticks).rawBuff = fun _ => 0 := by
  revert h
  refine Machine.run_invariant (M := machine (jump n))
    (P := fun s => s.now ≤ n → s.rawBuff = fun _ => 0) (fun _ => rfl) ?_ ticks
  intro s t h hle
  have hle : (step (jump n) s t).now ≤ n := hle
  show (step (jump n) s t).rawBuff = _
  cases t with
  | update =>
    by_cases hi : s.i < 6
    · rw [step_update hi] at hle ⊢
      exact h (Nat.le_of_succ_le hle)
    · rw [step_update_done hi] at hle ⊢
      exact h hle
  | requestBuffer =>
    rw [step_requestBuffer] at hle ⊢
    rw [requestBuffer_now] at hle
    funext a
    rw [jump, if_pos hle]
    by_cases ha : s.i = a
    · rw [requestBuffer_same ha, register_black]
    · rw [requestBuffer_of_ne ha, h hle]

/-- Behind a jump that came between the two bytes of channel `k`: its high byte is the old one, and
its low byte, once read, the new one. -/
structure Torn (n : Nat) (k : Fin 3) (s : ColorRead) : Prop where
  now : n < s.now
  begun : 2 * k + 1 ≤ s.i
  high : s.rawBuff (highAddr k) = 0
  low : 2 * k + 1 < s.i → s.rawBuff (lowAddr k) = 1

theorem Torn.step {n : Nat} {k : Fin 3} {s : ColorRead} (h : Torn n k s) (t : BusTick) :
    Torn n k (ColorRead.step (jump n) s t) := by
  obtain ⟨h1, h2, h3, h4⟩ := h
  cases t with
  | update =>
    by_cases hi : s.i < 6
    · rw [step_update hi]
      exact ⟨Nat.lt_succ_of_lt h1, h2, h3, h4⟩
    · rw [step_update_done hi]
      exact ⟨h1, h2, h3, h4⟩
  | requestBuffer =>
    rw [step_requestBuffer, jump, if_neg (by omega)]
    by_cases hi : s.i < 6
    · constructor
      · rw [requestBuffer_now]
        exact h1
      · rw [requestBuffer_i hi]
        omega
      · have hne : s.i ≠ highAddr k := by
          rw [highAddr_val]
          omega
        rw [requestBuffer_of_ne hne, h3]
      · intro _
        by_cases hlow : s.i = 2 * k + 1
        · rw [requestBuffer_same (hlow.trans (lowAddr_val k).symm), register_low, get_uniform]
          rfl
        · rw [requestBuffer_of_ne (by rwa [lowAddr_val])]
          exact h4 (by omega)
    · rw [requestBuffer_done hi]
      exact ⟨h1, h2, h3, h4⟩

/-- The update that a jump comes with. -/
theorem Torn.start {n : Nat} {k : Fin 3} {s : ColorRead} (hnow : s.now = n) (hi : s.i = 2 * k + 1)
    (hblack : s.rawBuff = fun _ => 0) : Torn n k (ColorRead.step (jump n) s .update) := by
  rw [step_update (by omega)]
  refine ⟨?_, ?_, ?_, fun h => ?_⟩
  · show n < s.now + 1
    omega
  · show 2 * (k : Nat) + 1 ≤ s.i
    omega
  · exact congrFun hblack _
  · have h : 2 * (k : Nat) + 1 < s.i := h
    omega

/-- An update between the two bytes of a channel can tear its reading. -/
theorem torn_run {n : Nat} {pre post : List BusTick} {k : Fin 3} (hn : pre.count .update = n)
    (hk : pre.count .requestBuffer = 2 * k + 1) :
    Torn n k ((machine (jump n)).run (pre ++ .update :: post)) := by
  have hi := run_i (jump n) pre
  have hnow : ((machine (jump n)).run pre).now = pre.count .update := run_now (jump n) (by omega)
  have hblack := black_run n pre (by omega)
  rw [Machine.run_append, Machine.runFrom_cons]
  exact Machine.runFrom_invariant (M := machine (jump n)) (P := Torn n k)
    (fun s t h => Torn.step h t) (Torn.start (by omega) (by omega) hblack) post

/-! ## Which interleavings read whole values -/

section
variable {ticks : List BusTick} (h : 6 ≤ ticks.count .requestBuffer)
include h

/-- Where no update tears a channel, the readings are the channels' own. -/
theorem readings_whole
    (hticks : ∀ pre post, ticks = pre ++ .update :: post →
      pre.count .requestBuffer < 6 → pre.count .requestBuffer % 2 = 0)
    (samples : Nat → Rgb UInt16) (k : Fin 3) :
    ∃ t ≤ ((machine samples).run ticks).now,
      (getColor ((machine samples).run ticks).rawBuff).get k = (samples t).get k := by
  have hlabels : (machine samples).labels tearing ticks = [] := by
    rw [Machine.labels_eq_nil_iff]
    intro pre t post heq
    cases t with
    | requestBuffer => rfl
    | update =>
      have hi := run_i samples pre
      have heven := hticks pre post heq
      rw [tearing, if_neg]
      omega
  have hi := run_i samples ticks
  obtain ⟨t, hle, hhigh, hlow⟩ := (whole_run samples hlabels).read k (by omega)
  refine ⟨t, hle, ?_⟩
  rw [getColor_get, hhigh, hlow, assemble_bytes]

/-- An update between the bytes of a channel tears it for some samples. -/
theorem readings_torn {pre post : List BusTick} {k : Fin 3}
    (hticks : ticks = pre ++ .update :: post) (hk : pre.count .requestBuffer = 2 * k + 1) :
    ∃ samples : Nat → Rgb UInt16, ∀ t,
      (getColor ((machine samples).run ticks).rawBuff).get k ≠ (samples t).get k := by
  refine ⟨jump (pre.count .update), fun t => ?_⟩
  have hi := run_i (jump (pre.count .update)) ticks
  have htorn : Torn (pre.count .update) k ((machine (jump (pre.count .update))).run ticks) := by
    rw [hticks]
    exact torn_run rfl hk
  rw [getColor_get, htorn.high, htorn.low (by omega), jump]
  split
  · rw [get_uniform]
    decide
  · rw [get_uniform]
    decide

end

end ColorRead

open ColorRead

/-- The readings of a call are values that the channels held during it, whatever the samples,
exactly if no update falls between the two transactions of a channel. -/
theorem readings_whole_iff {ticks : List BusTick} (h : 6 ≤ ticks.count .requestBuffer) :
    (∀ (samples : Nat → Rgb UInt16) (k : Fin 3), ∃ t ≤ ((machine samples).run ticks).now,
      (getColor ((machine samples).run ticks).rawBuff).get k = (samples t).get k) ↔
    ∀ pre post, ticks = pre ++ .update :: post →
      pre.count .requestBuffer < 6 → pre.count .requestBuffer % 2 = 0 := by
  constructor
  · intro hwhole pre post heq hlt
    by_contra hodd
    obtain ⟨samples, htorn⟩ := readings_torn h (k := ⟨pre.count .requestBuffer / 2, by omega⟩) heq
      (by dsimp only; omega)
    obtain ⟨t, -, ht⟩ := hwhole samples _
    exact htorn t ht
  · exact fun hticks samples k => readings_whole h hticks samples k

/-- A call with updates before, between and behind the channels. -/
def betweenChannels : List BusTick :=
  [.update, .requestBuffer, .requestBuffer, .update, .requestBuffer, .requestBuffer,
    .requestBuffer, .requestBuffer, .update]

theorem readings_whole_between : 6 ≤ betweenChannels.count .requestBuffer ∧
    ∀ (samples : Nat → Rgb UInt16) (k : Fin 3),
      ∃ t ≤ ((machine samples).run betweenChannels).now,
        (getColor ((machine samples).run betweenChannels).rawBuff).get k = (samples t).get k := by
  refine ⟨by decide, (readings_whole_iff (by decide)).2 fun pre post heq => ?_⟩
  have hlen := congrArg List.length heq
  have htake : betweenChannels.take pre.length = pre := by simp [heq]
  have hget : betweenChannels[pre.length]? = some .update := by simp [heq]
  have heven : ∀ n < 9, betweenChannels[n]? = some .update →
      (betweenChannels.take n).count .requestBuffer < 6 →
      (betweenChannels.take n).count .requestBuffer % 2 = 0 := by decide
  simp only [List.length_append, List.length_cons] at hlen
  have hlt : pre.length < 9 := by
    have hnine : betweenChannels.length = 9 := rfl
    omega
  have hpre := heven pre.length hlt hget
  rwa [htake] at hpre

/-- Red rises from 255 to 256 between its two bytes: 0 is read. -/
theorem reading_torn : ¬∀ (ticks : List BusTick) (samples : Nat → Rgb UInt16),
    6 ≤ ticks.count .requestBuffer → ∀ k : Fin 3,
      ∃ t ≤ ((machine samples).run ticks).now,
        (getColor ((machine samples).run ticks).rawBuff).get k = (samples t).get k := by
  intro h
  obtain ⟨t, -, ht⟩ := h [.requestBuffer, .update, .requestBuffer, .requestBuffer, .requestBuffer,
    .requestBuffer, .requestBuffer] (fun t => if t = 0 then ⟨255, 0, 0⟩ else ⟨256, 0, 0⟩)
    (by decide) 0
  have hr : (0 : UInt16) = (if t = 0 then (⟨255, 0, 0⟩ : Rgb UInt16) else ⟨256, 0, 0⟩).get 0 := ht
  split at hr
  · exact absurd hr (by decide)
  · exact absurd hr (by decide)

end BuptCar
