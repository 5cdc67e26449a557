import BuptCar.Proof.Sensor

/-!
# From the sensor to the goods

The parts put together: what the colour sensor answers on the I2C bus becomes the colours of a run
(`Wired.Ran.colors`), the log of the car tells them (`Car.Delivered`), the Bluetooth link carries
the log and the uploader makes goods of it (`Car.Delivered.link`).
-/

namespace BuptCar

theorem Car.delivered_task2 (p : Prelude) : (task2 p).Delivered :=
  (delivered_setup p.bestRecord).quiet (quiet_task2 p)

namespace Wired

variable {font : Nat → BitVec 8} {bus : I2c} {d : Display} {p : Prelude} {is : List Inputs}
  {s₁ s : Wired} {r : Prelude × List Inputs}

theorem Ran.delivered (h : Ran font bus d p is s₁ r s) : s.car.Delivered := by
  rw [h.car_eq]
  exact Machine.run_invariant (M := task2Machine r.1) (Car.delivered_task2 r.1)
    (fun _ inp hc => hc.step inp) r.2

end Wired

/-- **From the sensor to the goods.** In every run from power on, while the link carries a prefix
of the log and does not fail, the uploader raises nothing and has one good for each platform of some
first circles; the types are the colours of the visits, which are those of the readings that went
over the I2C bus. Once all of the log has been sent these are all completed circles. -/
theorem warehouse_run (font : Nat → BitVec 8) (bus : I2c) (frequency : Nat) (d : Display)
    (p : Prelude) (is : List Inputs) (rnd : Uploader.Random)
    {ds : List (BluetoothSerial.Input Char)} (hds : ∀ d ∈ ds, BluetoothSerial.Lossless d) :
    (Wired.run font bus p is).Returns (Wired.boot frequency d p) fun r s =>
      BluetoothSerial.acceptedBytes ds <+: s.car.sent.flatMap println →
        List.Forall₂ Wired.SensedAs is r.2 ∧
        s.car.colors = (task2Machine r.1).labels Car.visit r.2 ∧
        ∃ blank logs, Wired.Readings [] (blank :: logs) s.wire.transfers ∧
          s.car.location = logs.length ∧
          s.car.colors = (logs.map fun log =>
            colorOf (getColor (bus.delivered restoreClk blank)) (bus.delivered restoreClk log)) ∧
          let r := (Uploader.machine rnd).run (Python.readlines (BluetoothSerial.writtenBytes ds))
          r.raised = none ∧
          (∃ k ≤ logs.length / 4, r.xml = Uploader.goods rnd s.car.colors (4 * k)) ∧
          (BluetoothSerial.acceptedBytes ds = s.car.sent.flatMap println →
            ((BluetoothSerial.machine Char).run ds).pending = [] →
            r.xml = Uploader.goods rnd s.car.colors (4 * (logs.length / 4))) := by
  refine (Wired.run_sound font bus frequency d p is).mono ?_
  rintro r s ⟨s₁, h⟩ hacc
  obtain ⟨blank, logs, hreadings, hlocation, hcolors⟩ := h.colors
  have hlength : logs.length = s.car.colors.length := by rw [hcolors, List.length_map]
  refine ⟨h.stepped.inputs, h.visits, blank, logs, hreadings, hlocation, hcolors, ?_⟩
  rw [hlength]
  exact h.delivered.link rnd hds hacc

/-- Four red platforms behind a start over a line, and the log printed to its end. -/
theorem warehouse_run_circle :
    (Wired.run (fun _ => 0) (Wired.redSensor 36) Car.linePrelude
        ((circleFrames 100 4000).map seeing)).Returns
      (Wired.boot 100000 (Display.construct 128 32 fun _ => 0) Car.linePrelude) fun _ s =>
        s.car.location = 4 ∧ ((Uploader.machine ⟨0, fun _ => 0⟩).run
          (Python.readlines (BluetoothSerial.writtenBytes
            (printRun (deliveryLog [0, 0, 0, 0]))))).xml.map Good.type =
              List.replicate 4 "red".toList := by
  refine ((warehouse_run (fun _ => 0) (Wired.redSensor 36) 100000 _ Car.linePrelude
    ((circleFrames 100 4000).map seeing) ⟨0, fun _ => 0⟩
    (printRun_lossless (deliveryLog [0, 0, 0, 0]))).and
    (Wired.run_sound (fun _ => 0) (Wired.redSensor 36) 100000 _ Car.linePrelude
      ((circleFrames 100 4000).map seeing))).mono ?_
  rintro r s ⟨hgoods, s₁, h⟩
  obtain ⟨hlocation, hcolors, -⟩ := h.circle
  have hsent := h.delivered.sent
  rw [hcolors] at hsent
  obtain ⟨hacc, hpending⟩ := printRun_red
  replace hacc := hacc.trans (congrArg (List.flatMap println) hsent.symm)
  obtain ⟨-, -, blank, logs, -, hlogs, -, -, -, hall⟩ := hgoods (hacc ▸ List.prefix_rfl)
  have hlength : logs.length = 4 := by omega
  rw [hall hacc hpending, hlength, hcolors]
  exact ⟨hlocation, by decide +kernel⟩

end BuptCar
