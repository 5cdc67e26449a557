import BuptCar.Proof.Panel
import BuptCar.Proof.Wire

/-!
# Whole runs on the bus

A run down to the calls of `Wire.cpp` always returns, and leaves the car and the display of
`panelMachine` driven by what the sensor delivered (`wired_run`). `Sound` is the invariant of the
bus; `task2_sound` and `step_sound` say what the two parts of a run do to it.
-/

namespace BuptCar

open Call TwoWire

/-! ## The traffic -/

namespace Transfer

/-- What the panel gets. -/
def toPanel : Transfer → Option Display.Transmission
  | .write address bytes _ => if address = i2caddr then some bytes else none
  | _ => none

/-- The panel only gets transmissions that fit; the sensor gets commands and the addresses of
registers, or is asked for one byte. The clock is the one the display's library asks for. -/
def Proper : Transfer → Prop
  | .write address bytes frequency =>
    address = i2caddr ∧ frequency = wireClk ∧ bytes.length ≤ I2C_BUFFER_LENGTH ∨
    address = colorSensorAddr ∧ frequency = restoreClk ∧ bytes.length ≤ 2
  | .writeRead address bytes size frequency =>
    address = colorSensorAddr ∧ frequency = restoreClk ∧ bytes.length = 1 ∧ size = 1
  | .read .. => False

def isRead : Transfer → Bool
  | .write .. => false
  | _ => true

/-- The command that sets the lamp. -/
def lampLevel : Transfer → Option (BitVec 8)
  | .write address [control, level] _ =>
    if address = colorSensorAddr ∧ control = 0x10 then some level else none
  | _ => none

end Transfer

/-- The lamp as its last command left it. -/
def lampMachine : Machine (Option (BitVec 8)) Transfer where
  init := none
  step := fun level t => t.lampLevel.or level

/-- A byte read with the lamp not at its brightest. -/
def darkRead (level : Option (BitVec 8)) (t : Transfer) : Option Unit :=
  if t.isRead = true ∧ level ≠ some 0x00 then some () else none

/-- No byte is read but by the light of the lamp. -/
def Lit (log : List Transfer) : Prop := lampMachine.labels darkRead log = []

theorem Lit.append {log ts : List Transfer} (h : Lit log)
    (hts : lampMachine.labelsFrom darkRead (lampMachine.run log) ts = []) : Lit (log ++ ts) := by
  unfold Lit at h ⊢
  rw [Machine.labels_append, h, hts, List.append_nil]

/-- How many bytes were asked for. -/
def reads (log : List Transfer) : Nat := log.countP Transfer.isRead

/-- Transfers that neither set the lamp nor read. -/
theorem lamp_unchanged (level : Option (BitVec 8)) {ts : List Transfer}
    (h : ∀ t ∈ ts, t.lampLevel = none ∧ t.isRead = false) :
    lampMachine.runFrom level ts = level ∧ lampMachine.labelsFrom darkRead level ts = [] := by
  induction ts with
  | nil => exact ⟨rfl, rfl⟩
  | cons t ts ih =>
    obtain ⟨hrun, hlabels⟩ := ih fun u hu => h u (List.mem_cons_of_mem t hu)
    obtain ⟨hlevel, hread⟩ := h t List.mem_cons_self
    have hstep : lampMachine.step level t = level := by
      change t.lampLevel.or level = level
      rw [hlevel, Option.none_or]
    have hdark : darkRead level t = none := by
      unfold darkRead
      rw [hread]
      rfl
    rw [Machine.runFrom_cons, Machine.labelsFrom, hstep, hdark]
    exact ⟨hrun, hlabels⟩

namespace I2c

theorem shown_lamp (ts : List Display.Transmission) :
    ∀ t ∈ shown ts, t.lampLevel = none ∧ t.isRead = false := by
  intro t ht
  obtain ⟨bytes, -, rfl⟩ := List.mem_map.1 ht
  refine ⟨?_, rfl⟩
  unfold Transfer.lampLevel
  split
  · rename_i heq
    obtain ⟨rfl, -, -⟩ := Transfer.write.inj heq
    rw [if_neg (fun h => absurd h.1 (by decide))]
  · rfl

theorem shown_toPanel (ts : List Display.Transmission) :
    (shown ts).filterMap Transfer.toPanel = ts := by
  unfold shown
  rw [List.filterMap_map]
  exact List.filterMap_some

theorem shown_proper {ts : List Display.Transmission}
    (hlen : ∀ t ∈ ts, t.length ≤ I2C_BUFFER_LENGTH) : ∀ t ∈ shown ts, t.Proper := by
  intro t ht
  obtain ⟨bytes, hbytes, rfl⟩ := List.mem_map.1 ht
  exact .inl ⟨rfl, rfl, hlen bytes hbytes⟩

theorem reading_proper : ∀ t ∈ reading restoreClk (List.finRange 6), t.Proper := by
  intro t ht
  obtain ⟨i, -, hi⟩ := List.mem_flatMap.1 ht
  rcases List.mem_cons.1 hi with rfl | hi
  · exact ⟨rfl, rfl, rfl, rfl⟩
  · obtain rfl := List.mem_singleton.1 hi
    exact .inr ⟨rfl, rfl, Nat.le_succ 1⟩

theorem reading_toPanel :
    (reading restoreClk (List.finRange 6)).filterMap Transfer.toPanel = [] := by
  decide

theorem reading_lamp : lampMachine.runFrom (some 0x00) (reading restoreClk (List.finRange 6)) =
      some 0x00 ∧
    lampMachine.labelsFrom darkRead (some 0x00) (reading restoreClk (List.finRange 6)) = [] := by
  decide

end I2c

/-! ## The calls of an iteration that finds a platform -/

namespace Car

variable {inp : Inputs} {c : Car}

theorem sensed_rgbCalls (inp : Inputs) (c : Car) :
    (c.sensed inp).1.rgbCalls inp = c.rgbCalls inp := by
  unfold rgbCalls
  rw [sensed_blankRGB]

/-- The sensor's bytes are first looked at behind the countdown. -/
theorem oledCalls_platform (hc : c.control = .tracking) (hs : c.status inp = .platform)
    (rawBuff : RawBuff) : c.oledCalls { inp with rawBuff := rawBuff } =
      c.arriveCalls inp ++ (OledCall.oledCountdown "Capturing".toList 1 ++
        c.rgbCalls { inp with rawBuff := rawBuff }) := by
  have hs' : c.status { inp with rawBuff := rawBuff } = .platform := hs
  have harrive : c.arriveCalls inp = c.arriveCalls { inp with rawBuff := rawBuff } := rfl
  rw [harrive]
  generalize { inp with rawBuff := rawBuff } = inp' at hs' ⊢
  unfold oledCalls arriveCalls trackingCalls
  rw [hc, headCalls_eq, hs']
  dsimp only
  unfold platformCalls
  rw [sensed_rgbCalls]
  simp only [List.append_assoc]

end Car

namespace Wired

variable {font : Nat → BitVec 8} {bus : I2c} {d : Display} {s : Wired}

theorem onWire_returns {α : Type} {m : Call TwoWire α} {P : α → TwoWire → Prop}
    (h : m.Returns s.wire P) :
    (onWire m).Returns s fun a s' => s' = { s with wire := s'.wire } ∧ P a s'.wire :=
  returns_focus h fun _ _ ht => ⟨rfl, ht⟩

/-- What the calls `cs` of `oled.h` do: the display goes its way, and what they flush, `us`, is put
on the bus. -/
structure Called (font : Nat → BitVec 8) (cs : List OledCall)
    (us : List (List Display.Transmission)) (s s' : Wired) : Prop where
  car : s'.car = s.car
  oled : s'.oled = cs.foldl (Oled.call font WIRE_MAX) s.oled
  sent : s'.oled.sent = s.oled.sent ++ us
  length : ∀ t ∈ us.flatten, t.length ≤ I2C_BUFFER_LENGTH
  puts : Puts restoreClk (I2c.shown us.flatten) s.wire s'.wire

theorem Called.trans {cs ds : List OledCall} {us vs : List (List Display.Transmission)}
    {s₁ s₂ s₃ : Wired} (h : Called font cs us s₁ s₂) (h' : Called font ds vs s₂ s₃) :
    Called font (cs ++ ds) (us ++ vs) s₁ s₃ := by
  refine ⟨h'.car.trans h.car, ?_, ?_, ?_, ?_⟩
  · rw [List.foldl_append, ← h.oled, h'.oled]
  · rw [h'.sent, h.sent, List.append_assoc]
  · rw [List.flatten_append, List.forall_mem_append]
    exact ⟨h.length, h'.length⟩
  · rw [List.flatten_append, I2c.shown, List.map_append]
    exact h.puts.trans h'.puts

theorem call_returns (h : Free restoreClk s.wire) (c : OledCall) :
    (call font bus c).Returns s fun _ s' => ∃ us, Called font [c] us s s' := by
  have hpuref : ∀ s : Wired, Free restoreClk s.wire →
      Puts restoreClk (I2c.shown ([] : List (List Display.Transmission)).flatten) s.wire s.wire :=
    fun s h => ⟨h, (List.append_nil _).symm⟩
  unfold call
  cases c with
  | clear => exact ⟨_, _, rfl, [], rfl, rfl, (List.append_nil _).symm, nofun, hpuref s h⟩
  | print str row => exact ⟨_, _, rfl, [], rfl, rfl, (List.append_nil _).symm, nofun, hpuref s h⟩
  | flush =>
    dsimp only
    have hlen := s.oled.display.display_length (show 2 ≤ WIRE_MAX by decide)
    refine returns_get ?_
    refine (onWire_returns (I2c.transaction_returns h hlen)).bind fun _ s₁ h₁ => ?_
    obtain ⟨hs₁, hputs⟩ := h₁
    refine returns_modify ⟨[s.oled.display.display WIRE_MAX], ?_, ?_, ?_, ?_, ?_⟩
    · rw [hs₁]
    · rw [hs₁]
      rfl
    · rw [hs₁]
      rfl
    · rw [List.flatten_singleton]
      exact hlen
    · rw [List.flatten_singleton]
      exact hputs

theorem calls_returns (h : Free restoreClk s.wire) (cs : List OledCall) :
    (calls font bus cs).Returns s fun _ s' => ∃ us, Called font cs us s s' := by
  refine returns_forM (I := fun done s' => ∃ us, Called font done us s s')
    ⟨[], rfl, rfl, (List.append_nil _).symm, nofun, h, (List.append_nil _).symm⟩ ?_
  rintro done c rest s₁ - ⟨us, h₁⟩
  refine (call_returns h₁.puts.free c).mono ?_
  rintro _ s₂ ⟨vs, h₂⟩
  exact ⟨us ++ vs, h₁.trans h₂⟩

/-- What holds between two calls: the bus is free, the panel got what the display has sent, no byte
was read in the dark; the lamp is at `level`, and `n` bytes were read. -/
structure Sound (d : Display) (level : Option (BitVec 8)) (n : Nat) (s : Wired) : Prop where
  free : Free restoreClk s.wire
  panel : s.wire.transfers.filterMap Transfer.toPanel =
    d.initSequence WIRE_MAX false ++ s.oled.sent.flatten
  proper : ∀ t ∈ s.wire.transfers, t.Proper
  lit : Lit s.wire.transfers
  lamp : lampMachine.run s.wire.transfers = level
  reads : reads s.wire.transfers = n

variable {level : Option (BitVec 8)} {n : Nat}

theorem Sound.called {cs : List OledCall} {us : List (List Display.Transmission)} {s' : Wired}
    (h : Sound d level n s) (hc : Called font cs us s s') : Sound d level n s' := by
  have hlamp := I2c.shown_lamp us.flatten
  refine ⟨hc.puts.free, ?_, ?_, ?_, ?_, ?_⟩ <;> rw [hc.puts.transfers]
  · rw [List.filterMap_append, I2c.shown_toPanel, h.panel, hc.sent, List.flatten_append,
      List.append_assoc]
  · rw [List.forall_mem_append]
    exact ⟨h.proper, I2c.shown_proper hc.length⟩
  · exact h.lit.append (lamp_unchanged _ hlamp).2
  · rw [Machine.run_append, (lamp_unchanged _ hlamp).1, h.lamp]
  · have hnone : (I2c.shown us.flatten).countP Transfer.isRead = 0 :=
      List.countP_eq_zero.2 fun t ht => by rw [(hlamp t ht).2]; decide
    unfold BuptCar.reads
    rw [List.countP_append, hnone]
    exact h.reads

/-- Transfers with the sensor. -/
theorem Sound.puts {ts : List Transfer} {wire : TwoWire} (h : Sound d level n s)
    (hputs : Puts restoreClk ts s.wire wire) (hpanel : ts.filterMap Transfer.toPanel = [])
    (hproper : ∀ t ∈ ts, t.Proper) (hlit : lampMachine.labelsFrom darkRead level ts = []) :
    Sound d (lampMachine.runFrom level ts) (n + BuptCar.reads ts) { s with wire := wire } := by
  refine ⟨hputs.free, ?_, ?_, ?_, ?_, ?_⟩ <;> dsimp only <;> rw [hputs.transfers]
  · rw [List.filterMap_append, hpanel, List.append_nil, h.panel]
  · rw [List.forall_mem_append]
    exact ⟨h.proper, hproper⟩
  · exact h.lit.append (by rw [h.lamp]; exact hlit)
  · rw [Machine.run_append, h.lamp]
  · rw [← h.reads]
    exact List.countP_append

/-! ## The calls -/

theorem calls_sound (h : Sound d level n s) (cs : List OledCall) :
    (calls font bus cs).Returns s fun _ s' => Sound d level n s' ∧ s'.car = s.car ∧
      s'.oled = cs.foldl (Oled.call font WIRE_MAX) s.oled ∧
      s.wire.transfers <+: s'.wire.transfers := by
  refine (calls_returns h.free cs).mono ?_
  rintro _ s' ⟨us, hc⟩
  exact ⟨h.called hc, hc.car, hc.oled, ⟨_, hc.puts.transfers.symm⟩⟩

theorem setBrightness_sound (h : Sound d level n s) (brightness : BitVec 8) :
    (onWire (bus.setBrightness brightness)).Returns s fun _ s' =>
      Sound d (some (I2c.lampByte brightness)) n s' ∧ s'.car = s.car ∧ s'.oled = s.oled ∧
      s.wire.transfers <+: s'.wire.transfers := by
  refine (onWire_returns (I2c.setBrightness_returns h.free brightness)).mono ?_
  rintro _ s' ⟨hs', hputs⟩
  have hsound := h.puts hputs rfl (List.forall_mem_singleton.2 (.inr ⟨rfl, rfl, Nat.le_refl 2⟩)) rfl
  rw [hs']
  exact ⟨hsound, rfl, rfl, ⟨_, hputs.transfers.symm⟩⟩

theorem getColor_sound (h : Sound d (some 0x00) n s) :
    (onWire bus.getColor).Returns s fun rawBuff s' =>
      Sound d (some 0x00) (n + 6) s' ∧ s'.car = s.car ∧ s'.oled = s.oled ∧
      s'.wire.transfers =
        s.wire.transfers ++ I2c.reading restoreClk (List.finRange 6) ∧
      rawBuff = bus.delivered restoreClk s.wire.transfers := by
  refine (onWire_returns (I2c.getColor_returns h.free)).mono ?_
  rintro rawBuff s' ⟨hs', hputs, hraw⟩
  have hsound := h.puts hputs I2c.reading_toPanel I2c.reading_proper I2c.reading_lamp.2
  rw [I2c.reading_lamp.1] at hsound
  rw [hs']
  exact ⟨hsound, rfl, rfl, hputs.transfers, hraw⟩

theorem initOled_sent (font : Nat → BitVec 8) (d : Display) :
    ∀ ts ∈ (Oled.initOled font WIRE_MAX d).sent, ∃ d' : Display, ts = d'.display WIRE_MAX := by
  unfold Oled.initOled Oled.oledFlush Oled.oledClear
  simp

theorem transactions_returns (h : Free restoreClk s.wire) {tss : List (List Display.Transmission)}
    (hlen : ∀ ts ∈ tss, ∀ t ∈ ts, t.length ≤ I2C_BUFFER_LENGTH) :
    Returns (tss.forM fun ts => onWire (bus.transaction ts)) s fun _ s' =>
      Puts restoreClk (I2c.shown tss.flatten) s.wire s'.wire := by
  refine returns_forM (I := fun done (s' : Wired) =>
    Puts restoreClk (I2c.shown done.flatten) s.wire s'.wire) ⟨h, (List.append_nil _).symm⟩ ?_
  intro done ts rest s₁ htss h₁
  have hts : ts ∈ tss := by rw [htss]; exact List.mem_append_right _ List.mem_cons_self
  refine (onWire_returns (I2c.transaction_returns h₁.free (hlen ts hts))).mono ?_
  rintro _ s₂ ⟨-, h₂⟩
  rw [List.flatten_append, List.flatten_singleton, I2c.shown, List.map_append]
  exact h₁.trans h₂

/-- `initOled` is the first thing on the bus. -/
theorem initOled_sound (font : Nat → BitVec 8) (bus : I2c) (frequency : Nat) (d : Display)
    (p : Prelude) :
    (initOled font bus).Returns (boot frequency d p) fun _ s' =>
      Sound d none 0 s' ∧ s'.oled = Oled.initOled font WIRE_MAX d := by
  have hinit := d.initSequence_length (show 2 ≤ WIRE_MAX by decide) false
  have hsent : ∀ ts ∈ (Oled.initOled font WIRE_MAX d).sent, ∀ t ∈ ts,
      t.length ≤ I2C_BUFFER_LENGTH := by
    intro ts hts
    obtain ⟨d', rfl⟩ := initOled_sent font d ts hts
    exact d'.display_length (by decide)
  unfold initOled
  refine returns_get ?_
  refine (onWire_returns (I2c.transaction_returns ⟨rfl, rfl, rfl⟩ hinit)).bind ?_
  rintro _ s₁ ⟨-, h₁⟩
  refine (transactions_returns h₁.free hsent).bind fun _ s₂ h₂ => returns_modify ⟨?_, rfl⟩
  have htransfers := (h₁.trans h₂).transfers
  rw [I2c.shown, I2c.shown, ← List.map_append, ← I2c.shown] at htransfers
  change s₂.wire.transfers = I2c.shown (d.initSequence WIRE_MAX false ++
    (Oled.initOled font WIRE_MAX d).sent.flatten) at htransfers
  have hlamp := I2c.shown_lamp (d.initSequence WIRE_MAX false ++
    (Oled.initOled font WIRE_MAX d).sent.flatten)
  refine ⟨h₂.free, ?_, ?_, ?_, ?_, ?_⟩ <;> dsimp only <;> rw [htransfers]
  · exact I2c.shown_toPanel _
  · refine I2c.shown_proper ?_
    rw [List.forall_mem_append]
    refine ⟨hinit, fun t ht => ?_⟩
    obtain ⟨ts, hts, ht⟩ := List.mem_flatten.1 ht
    exact hsent ts hts t ht
  · exact (lamp_unchanged none hlamp).2
  · exact (lamp_unchanged none hlamp).1
  · exact List.countP_eq_zero.2 fun t ht => by rw [(hlamp t ht).2]; decide

/-- Readings on the bus between `start` and `finish`, one after another, each by the transfers
before it. -/
structure Readings (start : List Transfer) (logs : List (List Transfer)) (finish : List Transfer) :
    Prop where
  order : logs.Pairwise fun log log' =>
    log ++ I2c.reading restoreClk (List.finRange 6) <+: log'
  bounds : ∀ log ∈ logs, start <+: log ∧
    log ++ I2c.reading restoreClk (List.finRange 6) <+: finish

theorem Readings.append {ts₁ ts₂ ts₃ : List Transfer} {logs logs' : List (List Transfer)}
    (h : Readings ts₁ logs ts₂) (h' : Readings ts₂ logs' ts₃) (h₁₂ : ts₁ <+: ts₂)
    (h₂₃ : ts₂ <+: ts₃) : Readings ts₁ (logs ++ logs') ts₃ := by
  refine ⟨List.pairwise_append.2 ⟨h.order, h'.order, fun log hlog log' hlog' => ?_⟩, ?_⟩
  · exact (h.bounds log hlog).2.trans (h'.bounds log' hlog').1
  · rw [List.forall_mem_append]
    refine ⟨fun log hlog => ?_, fun log hlog => ?_⟩
    · exact ⟨(h.bounds log hlog).1, (h.bounds log hlog).2.trans h₂₃⟩
    · exact ⟨h₁₂.trans (h'.bounds log hlog).1, (h'.bounds log hlog).2⟩

theorem Readings.nil (start finish : List Transfer) : Readings start [] finish := ⟨.nil, nofun⟩

theorem Readings.single {ts log ts' : List Transfer} (h : ts <+: log)
    (h' : log ++ I2c.reading restoreClk (List.finRange 6) <+: ts') : Readings ts [log] ts' :=
  ⟨List.pairwise_singleton _ _, List.forall_mem_singleton.2 ⟨h, h'⟩⟩

theorem task2_sound (font : Nat → BitVec 8) (bus : I2c) (frequency : Nat) (d : Display)
    (p : Prelude) :
    (task2 font bus p).Returns (boot frequency d p) fun p' s' =>
      Sound d (some 0x00) 12 s' ∧ p' = { p with blankBuff := p'.blankBuff } ∧
      (∃ log, p'.blankBuff = bus.delivered restoreClk log ∧
        Readings [] [log] s'.wire.transfers) ∧
      s'.car = BuptCar.task2 p' ∧
      s'.oled = (oledMachine font WIRE_MAX d).run (setupCalls ++ task2Calls p') := by
  unfold task2
  refine (initOled_sound font bus frequency d p).bind ?_
  rintro _ s₁ ⟨h₁, ho₁⟩
  refine (setBrightness_sound h₁ 0).bind ?_
  rintro _ s₂ ⟨h₂, -, ho₂, -⟩
  refine (calls_sound h₂ setupCalls).bind ?_
  rintro _ s₃ ⟨h₃, -, ho₃, -⟩
  refine (setBrightness_sound h₃ 10).bind ?_
  rintro _ s₄ ⟨h₄, -, ho₄, -⟩
  refine Returns.bind (R := fun _ s₅ => Sound d (some 0x00) 6 s₅ ∧ s₅.oled = s₄.oled)
    ((getColor_sound h₄).discard fun _ _ h => ⟨h.1, h.2.2.1⟩) ?_
  rintro _ s₅ ⟨h₅, ho₅⟩
  refine (getColor_sound h₅).bind ?_
  rintro blankBuff s₆ ⟨h₆, -, ho₆, htransfers₆, hblank⟩
  refine (calls_sound h₆ (task2Calls { p with blankBuff := blankBuff })).bind ?_
  rintro _ s₇ ⟨h₇, -, ho₇, hprefix₇⟩
  refine ⟨_, _, rfl, ⟨h₇.free, h₇.panel, h₇.proper, h₇.lit, h₇.lamp, h₇.reads⟩, rfl, ?_, rfl, ?_⟩
  · refine ⟨s₅.wire.transfers, hblank, .single List.nil_prefix ?_⟩
    rw [← htransfers₆]
    exact hprefix₇
  · rw [Machine.run, Machine.runFrom, List.foldl_append]
    change s₇.oled = _
    rw [ho₇, ho₆, ho₅, ho₄, ho₃, ho₂, ho₁]
    rfl

theorem step_sound (h : Sound d level n s) (inp : Inputs) :
    (step font bus inp).Returns s fun inp' s' =>
      inp' = { inp with rawBuff := inp'.rawBuff } ∧ s'.car = s.car.step inp' ∧
      s'.oled = (s.car.oledCalls inp').foldl (Oled.call font WIRE_MAX) s.oled ∧
      s.wire.transfers <+: s'.wire.transfers ∧
      if s.car.control = .tracking ∧ s.car.status inp = .platform then
        Sound d (some 0xA0) (n + 6) s' ∧ ∃ log, inp'.rawBuff = bus.delivered restoreClk log ∧
          Readings s.wire.transfers [log] s'.wire.transfers
      else Sound d level n s' ∧ inp' = inp := by
  unfold step
  refine returns_get ?_
  by_cases hp : s.car.control = .tracking ∧ s.car.status inp = .platform
  · rw [if_pos hp]
    refine (calls_sound h _).bind ?_
    rintro _ s₁ ⟨h₁, -, ho₁, hprefix₁⟩
    refine (setBrightness_sound h₁ 10).bind ?_
    rintro _ s₂ ⟨h₂, -, ho₂, hprefix₂⟩
    refine (calls_sound h₂ _).bind ?_
    rintro _ s₃ ⟨h₃, -, ho₃, hprefix₃⟩
    refine (getColor_sound h₃).bind ?_
    rintro rawBuff s₄ ⟨h₄, -, ho₄, htransfers₄, hraw⟩
    refine (calls_sound h₄ _).bind ?_
    rintro _ s₅ ⟨h₅, -, ho₅, hprefix₅⟩
    refine (setBrightness_sound h₅ 0).bind ?_
    rintro _ s₆ ⟨h₆, -, ho₆, hprefix₆⟩
    have hbefore := (hprefix₁.trans hprefix₂).trans hprefix₃
    have hafter := hprefix₅.trans hprefix₆
    refine ⟨_, _, rfl, rfl, rfl, ?_, ?_, ?_⟩
    · change s₆.oled = _
      rw [Car.oledCalls_platform hp.1 hp.2, List.foldl_append, List.foldl_append, ← ho₁, ← ho₂,
        ← ho₃, ← ho₄, ← ho₅, ho₆]
    · change s.wire.transfers <+: s₆.wire.transfers
      refine (hbefore.trans ?_).trans hafter
      rw [htransfers₄]
      exact List.prefix_append ..
    · rw [if_pos hp]
      refine ⟨⟨h₆.free, h₆.panel, h₆.proper, h₆.lit, h₆.lamp, h₆.reads⟩,
        s₃.wire.transfers, hraw, .single hbefore ?_⟩
      rw [← htransfers₄]
      exact hafter
  · rw [if_neg hp]
    refine (calls_sound h _).bind ?_
    rintro _ s₁ ⟨h₁, -, ho₁, hprefix₁⟩
    refine ⟨_, _, rfl, rfl, rfl, ho₁, hprefix₁, ?_⟩
    rw [if_neg hp]
    exact ⟨⟨h₁.free, h₁.panel, h₁.proper, h₁.lit, h₁.lamp, h₁.reads⟩, rfl⟩

/-! ## Runs -/

/-- The sensor's bytes in a step that reads them. -/
def platformBuff (s : Car × Oled) (inp : Inputs) : Option RawBuff :=
  if s.1.control = .tracking ∧ s.1.status inp = .platform then some inp.rawBuff else none

/-- The readings at the platforms of a run from `s`. -/
def platformBuffs (font : Nat → BitVec 8) (d : Display) (p : Prelude) (s : Wired)
    (inps : List Inputs) : List RawBuff :=
  (panelMachine font WIRE_MAX d p).labelsFrom platformBuff (s.car, s.oled) inps

/-- `inp'` is `inp` but for the sensor's bytes. -/
def SensedAs (inp inp' : Inputs) : Prop := inp' = { inp with rawBuff := inp'.rawBuff }

/-- What the steps on `is` do, `inps` being what they were given in the end. -/
structure Stepped (font : Nat → BitVec 8) (bus : I2c) (d : Display) (p : Prelude) (n : Nat)
    (s : Wired) (is inps : List Inputs) (s' : Wired) : Prop where
  inputs : List.Forall₂ SensedAs is inps
  state : (s'.car, s'.oled) = (panelMachine font WIRE_MAX d p).runFrom (s.car, s.oled) inps
  transfers : s.wire.transfers <+: s'.wire.transfers
  sound : ∃ level, Sound d level (n + 6 * (platformBuffs font d p s inps).length) s'
  readings : ∃ logs, platformBuffs font d p s inps = logs.map (bus.delivered restoreClk) ∧
    Readings s.wire.transfers logs s'.wire.transfers

theorem Stepped.refl {level : Option (BitVec 8)} {n : Nat} {s : Wired} (h : Sound d level n s)
    (p : Prelude) : Stepped font bus d p n s [] [] s :=
  ⟨.nil, rfl, List.prefix_rfl, ⟨level, h⟩, [], rfl, .nil _ _⟩

theorem Stepped.step {p : Prelude} {n : Nat} {is inps : List Inputs} {s s' : Wired}
    (h : Stepped font bus d p n s is inps s') (inp : Inputs) :
    (Wired.step font bus inp).Returns s' fun inp' s'' =>
      Stepped font bus d p n s (is ++ [inp]) (inps ++ [inp']) s'' := by
  obtain ⟨hinputs, hstate, hprefix, ⟨level, hsound⟩, logs, hlogs, hreadings⟩ := h
  refine (step_sound hsound inp).mono ?_
  rintro inp' s'' ⟨hsensed, hcar, holed, hprefix', hstep⟩
  have hread : platformBuff (s'.car, s'.oled) inp' =
      if s'.car.control = .tracking ∧ s'.car.status inp = .platform then some inp'.rawBuff
      else none := by
    rw [hsensed]
    rfl
  have hbuffs : platformBuffs font d p s (inps ++ [inp']) = platformBuffs font d p s inps ++
      (platformBuff (s'.car, s'.oled) inp').toList := by
    unfold platformBuffs
    rw [Machine.labelsFrom_append, ← hstate, Machine.labelsFrom, Machine.labelsFrom,
      List.append_nil]
  rw [hread] at hbuffs
  have hinputs' : List.Forall₂ SensedAs (is ++ [inp]) (inps ++ [inp']) :=
    List.rel_append hinputs (.cons hsensed .nil)
  have hstate' : (s''.car, s''.oled) =
      (panelMachine font WIRE_MAX d p).runFrom (s.car, s.oled) (inps ++ [inp']) := by
    rw [Machine.runFrom_concat, ← hstate, hcar, holed]
    rfl
  by_cases hp : s'.car.control = .tracking ∧ s'.car.status inp = .platform
  · rw [if_pos hp] at hstep hbuffs
    refine ⟨hinputs', hstate', hprefix.trans hprefix', ⟨some 0xA0, ?_⟩, ?_⟩
    · rw [hbuffs, List.length_append, Nat.mul_add, ← Nat.add_assoc]
      exact hstep.1
    · obtain ⟨-, log, hraw, hreading⟩ := hstep
      refine ⟨logs ++ [log], ?_, hreadings.append hreading hprefix hprefix'⟩
      rw [hbuffs, List.map_append, hlogs, hraw]
      rfl
  · rw [if_neg hp] at hstep hbuffs
    rw [Option.toList_none, List.append_nil] at hbuffs
    refine ⟨hinputs', hstate', hprefix.trans hprefix', ⟨level, ?_⟩, ?_⟩ <;> rw [hbuffs]
    · exact hstep.1
    · refine ⟨logs ++ [], ?_, hreadings.append (.nil _ _) hprefix hprefix'⟩
      rw [List.append_nil, hlogs]

theorem steps_returns {n : Nat} (h : Sound d level n s) (p : Prelude) (is : List Inputs) :
    (steps font bus is).Returns s fun inps s' => Stepped font bus d p n s is inps s' := by
  refine returns_foldlM (I := fun done inps s' => Stepped font bus d p n s done inps s')
    (.refl h p) ?_
  intro done inp rest inps s' _ hs'
  exact (hs'.step inp).bind fun inp' s'' h'' => returns_pure h''

/-- What a run from power on does, `s₁` being the state before the endless loops. -/
structure Ran (font : Nat → BitVec 8) (bus : I2c) (d : Display) (p : Prelude) (is : List Inputs)
    (s₁ : Wired) (r : Prelude × List Inputs) (s : Wired) : Prop where
  given : r.1 = { p with blankBuff := r.1.blankBuff }
  blank : ∃ log, r.1.blankBuff = bus.delivered restoreClk log ∧
    Readings [] [log] s₁.wire.transfers
  blankReads : reads s₁.wire.transfers = 12
  car : s₁.car = BuptCar.task2 r.1
  oled : s₁.oled = (oledMachine font WIRE_MAX d).run (setupCalls ++ task2Calls r.1)
  stepped : Stepped font bus d r.1 12 s₁ is r.2 s

theorem run_sound (font : Nat → BitVec 8) (bus : I2c) (frequency : Nat) (d : Display) (p : Prelude)
    (is : List Inputs) :
    (run font bus p is).Returns (boot frequency d p) fun r s =>
      ∃ s₁, Ran font bus d p is s₁ r s := by
  unfold run
  refine (task2_sound font bus frequency d p).bind ?_
  rintro p' s₁ ⟨h₁, hp', hblank, hcar, holed⟩
  refine (steps_returns h₁ p' is).bind fun inps s₂ h => ?_
  exact returns_pure ⟨s₁, hp', hblank, h₁.reads, hcar, holed, h⟩

end Wired

end BuptCar
