import BuptCar.Proof.Delivery
import BuptCar.Proof.Packets
import BuptCar.Proof.Pilot
import BuptCar.Proof.Assigned

/-!
# Delivery over the Bluetooth link

The car's log is printed into the driver of `BluetoothSerial.cpp`, whose task hands it to the stack
in chunks; the uploader reads lines. A byte of the link is a character here: all messages are ASCII.
While the link does not fail, the uploader has at every moment received whole messages of the log
and the beginning of the next (`readlines_log`), so it holds the goods of some first circles
(`reader_run_prefix`).
-/

namespace BuptCar

open scoped List

namespace Uploader

/-- The messages of a visit are its notice, or the notice and a package. -/
theorem prefix_visitMessages {colors : List Int} {j : Nat} {lines : List Text}
    (h : lines <+: visitMessages colors j) :
    lines = [] ∨ lines = [platformReached] ∨ lines = visitMessages colors j := by
  unfold visitMessages at h ⊢
  split at h
  · rename_i h4
    rw [if_pos h4]
    rcases List.prefix_cons_iff.1 h with rfl | ⟨t, rfl, ht⟩
    · exact .inl rfl
    · rcases List.prefix_cons_iff.1 ht with rfl | ⟨u, rfl, hu⟩
      · exact .inr (.inl rfl)
      · rw [List.prefix_nil.1 hu]
        exact .inr (.inr rfl)
  · rcases List.prefix_cons_iff.1 h with rfl | ⟨t, rfl, ht⟩
    · exact .inl rfl
    · rw [List.prefix_nil.1 ht]
      exact .inr (.inl rfl)

/-- On the first messages of the log the uploader holds the goods of the circles whose packages are
among them. -/
theorem reader_run_prefix (rnd : Random) {colors : List Int} (h : ∀ x ∈ colors, 0 ≤ x ∧ x ≤ 4)
    {lines : List Text} (hl : lines <+: deliveryLog colors) :
    ∃ k ≤ colors.length / 4,
      (machine rnd).run (lines.map println) = ⟨goods rnd colors (4 * k), none⟩ := by
  induction colors using List.reverseRecOn generalizing lines with
  | nil =>
    rw [List.prefix_nil.1 hl]
    exact ⟨0, Nat.le_refl 0, rfl⟩
  | append_singleton colors c ih =>
    have hcolors := fun x hx => h x (List.mem_append_left _ hx)
    have hlen : (colors ++ [c]).length = colors.length + 1 := by simp
    rw [deliveryLog_concat] at hl
    rcases List.prefix_or_prefix_of_prefix hl (List.prefix_append _ _) with hl' | ⟨rest, rfl⟩
    · obtain ⟨k, hk, hrun⟩ := ih hcolors hl'
      refine ⟨k, by omega, ?_⟩
      rw [hrun, goods_append rnd colors (by omega) c]
    · -- the messages of the last visit have begun
      have hbefore := reader_run rnd hcolors
      have hgoods := goods_append rnd colors (n := 4 * (colors.length / 4)) (by omega) c
      have hle : colors.length / 4 ≤ (colors ++ [c]).length / 4 := by omega
      have hr := (List.prefix_append_right_inj _).1 hl
      rcases prefix_visitMessages hr with rfl | rfl | rfl
      · rw [List.append_nil]
        exact ⟨_, hle, by rw [hbefore, hgoods]⟩
      · refine ⟨_, hle, ?_⟩
        rw [List.map_append, Machine.run_append, hbefore, hgoods]
        exact receive_platformReached rnd _
      · rw [← deliveryLog_concat]
        exact ⟨_, Nat.le_refl _, reader_run rnd h⟩

end Uploader

/-- A car whose log is being printed over the link: what has been sent of it, read line by line,
makes goods of first circles. -/
theorem Car.Delivered.link {c : Car} (hc : c.Delivered) (rnd : Uploader.Random)
    {ds : List (BluetoothSerial.Input Char)} (hds : ∀ d ∈ ds, BluetoothSerial.Lossless d)
    (hacc : BluetoothSerial.acceptedBytes ds <+: c.sent.flatMap println) :
    let s := (BluetoothSerial.machine Char).run ds
    let r := (Uploader.machine rnd).run (Python.readlines (BluetoothSerial.writtenBytes ds))
    r.raised = none ∧ (∃ k ≤ c.colors.length / 4, r.xml = Uploader.goods rnd c.colors (4 * k)) ∧
      (BluetoothSerial.acceptedBytes ds = c.sent.flatMap println → s.pending = [] →
        r.xml = Uploader.goods rnd c.colors (4 * (c.colors.length / 4))) := by
  intro s r
  obtain ⟨heq, -⟩ := BluetoothSerial.lossless_run hds
  have hpre : BluetoothSerial.writtenBytes ds <+: (deliveryLog c.colors).flatMap println := by
    rw [← hc.sent]
    exact List.IsPrefix.trans ⟨_, heq⟩ hacc
  have hlines := Python.readlines_prefix hpre
  rw [Uploader.readlines_log] at hlines
  -- the lines read are the first messages of the log
  have htake := List.prefix_iff_eq_take.1 hlines
  rw [← List.map_take] at htake
  obtain ⟨k, hk, hrun⟩ := Uploader.reader_run_prefix rnd hc.range (List.take_prefix _ _)
  have hr : r = ⟨Uploader.goods rnd c.colors (4 * k), none⟩ := (congrArg _ htake).trans hrun
  refine ⟨by rw [hr], ⟨k, hk, by rw [hr]⟩, fun hall hp => ?_⟩
  have hwritten : BluetoothSerial.writtenBytes ds = (deliveryLog c.colors).flatMap println := by
    rw [← hc.sent, ← hall, ← heq]
    show _ = _ ++ s.pending
    rw [hp, List.append_nil]
  have hr : r = ⟨Uploader.goods rnd c.colors (4 * (c.colors.length / 4)), none⟩ := by
    show (Uploader.machine rnd).run (Python.readlines (BluetoothSerial.writtenBytes ds)) = _
    rw [hwritten, Uploader.readlines_log]
    exact Uploader.reader_run rnd hc.range
  rw [hr]

/-- **Delivery over the link.** Whatever the order in which the car prints its log, the task sends
chunks and the stack acknowledges them, as long as no write is refused and the link does not fail:
what has been sent at any moment makes the uploader raise nothing and leaves the goods of some
first circles, of all completed ones once the log is printed and nothing is pending; the colours
are those read at the visits, one per platform. -/
theorem delivery_over_bluetooth (p : Prelude) (bestRecord : ExplosureRecord) (is : List Inputs)
    (rnd : Uploader.Random) {ds : List (BluetoothSerial.Input Char)}
    (hds : ∀ d ∈ ds, BluetoothSerial.Lossless d)
    (hacc : BluetoothSerial.acceptedBytes ds <+:
      ((trackingMachine p bestRecord).run is).sent.flatMap println) :
    let c := (trackingMachine p bestRecord).run is
    let s := (BluetoothSerial.machine Char).run ds
    let r := (Uploader.machine rnd).run (Python.readlines (BluetoothSerial.writtenBytes ds))
    c.colors = (trackingMachine p bestRecord).labels Car.visit is ∧
      c.location = c.colors.length ∧ r.raised = none ∧
      (∃ k ≤ c.colors.length / 4, r.xml = Uploader.goods rnd c.colors (4 * k)) ∧
      (BluetoothSerial.acceptedBytes ds = c.sent.flatMap println → s.pending = [] →
        r.xml = Uploader.goods rnd c.colors (4 * (c.colors.length / 4))) :=
  ⟨Car.visits_run p bestRecord is, (delivered_run p bestRecord is).location,
    (delivered_run p bestRecord is).link rnd hds hacc⟩

/-! ## A circle -/

namespace Car

theorem enterTracking_blankRGB (bestRecord : ExplosureRecord) (c : Car) :
    { c with bestRecord := bestRecord }.enterTracking.blankRGB = c.blankRGB := rfl

theorem init_blankRGB (p : Prelude) (bestRecord : ExplosureRecord) :
    (trackingMachine p bestRecord).init.blankRGB = getColor p.blankBuff :=
  (enterTracking_blankRGB bestRecord (calibrate p).1).trans (calibrate_blankRGB p)

theorem run_blankRGB (p : Prelude) (bestRecord : ExplosureRecord) (is : List Inputs) :
    ((trackingMachine p bestRecord).run is).blankRGB = getColor p.blankBuff :=
  Machine.run_invariant (M := trackingMachine p bestRecord)
    (P := fun c => c.blankRGB = getColor p.blankBuff) (init_blankRGB p bestRecord)
    (fun c inp h => (c.step_blankRGB inp).trans h) is

/-- Where the sensor always reads the same, so are the colours. -/
theorem colors_same (p : Prelude) (bestRecord : ExplosureRecord) {rawBuff : RawBuff} {x : Int}
    (hx : getRGB rawBuff (getColor p.blankBuff) = some x) {is : List Inputs}
    (his : ∀ inp ∈ is, inp.rawBuff = rawBuff) :
    ((trackingMachine p bestRecord).run is).colors =
      List.replicate ((trackingMachine p bestRecord).run is).location.toNat x := by
  have hall : ∀ y ∈ ((trackingMachine p bestRecord).run is).colors, y = x := by
    rw [visits_run]
    induction is using List.reverseRecOn with
    | nil => exact nofun
    | append_singleton is inp ih =>
      have hvisit : ∀ y ∈ (visit ((trackingMachine p bestRecord).run is) inp).toList, y = x := by
        unfold visit
        rw [run_blankRGB, his inp (List.mem_append_right _ List.mem_cons_self), hx]
        split <;> simp
      intro y hy
      rw [Machine.labels_concat] at hy
      rcases List.mem_append.1 hy with hy | hy
      · exact ih (fun i hi => his i (List.mem_append_left _ hi)) y hy
      · exact hvisit y hy
  rw [(delivered_run p bestRecord is).location, Int.toNat_natCast]
  exact List.eq_replicate_iff.2 ⟨rfl, hall⟩

end Car

/-- Four platforms, each with the frame thrown away and the line behind it. -/
def circleFrames (dark light : Fin 4096) : List Frame :=
  (List.replicate 4
    [platformFrame dark light, Ccd.lineOf dark light, Ccd.lineOf dark light]).flatten

theorem circle_location (p : Prelude) (bestRecord : ExplosureRecord) {is : List Inputs}
    (his : is.map Inputs.frame = circleFrames 100 4000) :
    ((trackingMachine p bestRecord).run is).location = 4 := by
  show ((trackingMachine p bestRecord).run is).pilot.location = 4
  rw [pilot_run, his]
  decide +kernel

/-- The driver prints a log, message by message. -/
def printRun (log : List Text) : List (BluetoothSerial.Input Char) :=
  .srvOpen 1 :: log.flatMap fun m =>
    [.write true m, .write true ['\r', '\n'], .receive, .receive, .send .acked]

theorem printRun_lossless (log : List Text) : ∀ d ∈ printRun log, BluetoothSerial.Lossless d := by
  intro d hd
  rcases List.mem_cons.1 hd with rfl | hd
  · trivial
  · obtain ⟨m, -, hm⟩ := List.mem_flatMap.1 hd
    simp only [List.mem_cons, List.not_mem_nil, or_false] at hm
    rcases hm with rfl | rfl | rfl | rfl | rfl
    · trivial
    · trivial
    · trivial
    · trivial
    · rfl

/-- It prints four colours red, and all of it is sent. -/
theorem printRun_red : BluetoothSerial.acceptedBytes (printRun (deliveryLog [0, 0, 0, 0])) =
      (deliveryLog [0, 0, 0, 0]).flatMap println ∧
    ((BluetoothSerial.machine Char).run (printRun (deliveryLog [0, 0, 0, 0]))).pending = [] := by
  decide +kernel

/-- A light red, over a black blank reading. -/
def redBuff : RawBuff := fun i => if i.1 = 1 then 200 else 0

def redCircle (dark light : Fin 4096) : List Inputs :=
  (circleFrames dark light).map fun frame => { seeing frame with rawBuff := redBuff }

theorem redCircle_colors :
    ((trackingMachine (Car.uniformPrelude 0) (Car.uniformPrelude 0).bestRecord).run
      (redCircle 100 4000)).colors = [0, 0, 0, 0] := by
  have hred : getRGB redBuff (getColor (Car.uniformPrelude 0).blankBuff) = some 0 := by
    decide +kernel
  rw [Car.colors_same _ _ hred (by simp [redCircle]), circle_location _ _ rfl]
  rfl

/-- Four red platforms, and the log printed to its end. -/
theorem delivery_over_bluetooth_circle :
    ((Uploader.machine ⟨0, fun _ => 0⟩).run (Python.readlines (BluetoothSerial.writtenBytes
      (printRun (deliveryLog [0, 0, 0, 0]))))).xml.map Good.type =
        List.replicate 4 "red".toList := by
  have hsent := (delivered_run (Car.uniformPrelude 0) (Car.uniformPrelude 0).bestRecord
    (redCircle 100 4000)).sent
  rw [redCircle_colors] at hsent
  obtain ⟨hacc, hpending⟩ := printRun_red
  replace hacc := hacc.trans (congrArg (List.flatMap println) hsent.symm)
  obtain ⟨-, -, -, -, hall⟩ := delivery_over_bluetooth (Car.uniformPrelude 0)
    (Car.uniformPrelude 0).bestRecord (redCircle 100 4000) ⟨0, fun _ => 0⟩
    (printRun_lossless (deliveryLog [0, 0, 0, 0])) (hacc ▸ List.prefix_rfl)
  rw [hall hacc hpending, redCircle_colors]
  decide +kernel

end BuptCar
