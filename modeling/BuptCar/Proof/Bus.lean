import BuptCar.Adafruit.SSD1306

/-!
# The picture on its way to the panel

The panel takes what follows a control byte `0x40` as picture data and what follows `0x00` as
commands; a new transmission goes on where the last one ended.
-/

namespace BuptCar

namespace Display

/-- What the panel takes from a list of transmissions behind the given control byte. -/
def received (control : BitVec 8) (ts : List Transmission) : List (BitVec 8) :=
  (ts.filter fun t => t.head? = some control).flatMap List.tail

theorem received_append (control : BitVec 8) (ts us : List Transmission) :
    received control (ts ++ us) = received control ts ++ received control us := by
  unfold received
  rw [List.filter_append, List.flatMap_append]

/-- The invariant of the loop: the open transmission has its control byte and fits. -/
theorem wireWrite_spec {control : BitVec 8} {WIRE_MAX : Nat} (hW : 2 ≤ WIRE_MAX)
    (sent bytes : List (BitVec 8)) (hlen : sent.length + 1 ≤ WIRE_MAX) :
    (∀ t ∈ wireWrite control WIRE_MAX (control :: sent) bytes,
      t.head? = some control ∧ t.length ≤ WIRE_MAX) ∧
    (wireWrite control WIRE_MAX (control :: sent) bytes).flatMap List.tail = sent ++ bytes := by
  induction bytes generalizing sent with
  | nil =>
    refine ⟨fun t ht => ?_, ?_⟩
    · rw [wireWrite, List.mem_singleton] at ht
      subst ht
      exact ⟨rfl, hlen⟩
    · simp [wireWrite]
  | cons byte bytes ih =>
    rw [wireWrite]
    split
    · obtain ⟨hall, hbytes⟩ := ih [byte] hW
      refine ⟨fun t ht => ?_, ?_⟩
      · rcases List.mem_cons.1 ht with rfl | ht
        · exact ⟨rfl, hlen⟩
        · exact hall t ht
      · rw [List.flatMap_cons, hbytes]
        rfl
    · rename_i hroom
      rw [List.length_cons] at hroom
      obtain ⟨hall, hbytes⟩ := ih (sent ++ [byte]) (by rw [List.length_append]; simp; omega)
      refine ⟨hall, ?_⟩
      rw [List.cons_append, hbytes, List.append_assoc]
      rfl

theorem received_wireWrite {control : BitVec 8} {WIRE_MAX : Nat} (hW : 2 ≤ WIRE_MAX)
    (bytes : List (BitVec 8)) :
    received control (wireWrite control WIRE_MAX [control] bytes) = bytes := by
  obtain ⟨hall, hbytes⟩ := wireWrite_spec hW [] bytes (by simp; omega)
  unfold received
  rw [List.filter_eq_self.2 fun t ht => by rw [(hall t ht).1]; simp, hbytes, List.nil_append]

theorem received_other {control control' : BitVec 8} (hne : control' ≠ control) {WIRE_MAX : Nat}
    (hW : 2 ≤ WIRE_MAX) (bytes : List (BitVec 8)) :
    received control (wireWrite control' WIRE_MAX [control'] bytes) = [] := by
  obtain ⟨hall, -⟩ := wireWrite_spec hW [] bytes (by simp; omega)
  unfold received
  rw [List.filter_eq_nil_iff.2 fun t ht => by rw [(hall t ht).1]; simpa using hne, List.flatMap_nil]

theorem received_picture {WIRE_MAX : Nat} (hW : 2 ≤ WIRE_MAX) (d : Display) :
    received 0x40 (d.display WIRE_MAX) = d.bufferBytes := by
  unfold display ssd1306_commandList
  rw [received_append, received_append, received_wireWrite hW, received_other (by decide) hW]
  rfl

theorem wireWrite_length {WIRE_MAX : Nat} (hW : 2 ≤ WIRE_MAX) (control : BitVec 8)
    (bytes : List (BitVec 8)) :
    ∀ t ∈ wireWrite control WIRE_MAX [control] bytes, t.length ≤ WIRE_MAX := fun t ht =>
  ((wireWrite_spec hW [] bytes (by simp; omega)).1 t ht).2

theorem command1_length {WIRE_MAX : Nat} (hW : 2 ≤ WIRE_MAX) (c : BitVec 8) :
    ∀ t ∈ ssd1306_command1 c, t.length ≤ WIRE_MAX := List.forall_mem_singleton.2 hW

theorem display_length {WIRE_MAX : Nat} (hW : 2 ≤ WIRE_MAX) (d : Display) :
    ∀ t ∈ d.display WIRE_MAX, t.length ≤ WIRE_MAX := by
  unfold display ssd1306_commandList
  simp only [List.forall_mem_append]
  exact ⟨⟨wireWrite_length hW _ _, command1_length hW _⟩, wireWrite_length hW _ _⟩

theorem initSequence_length {WIRE_MAX : Nat} (hW : 2 ≤ WIRE_MAX) (external : Bool) (d : Display) :
    ∀ t ∈ d.initSequence WIRE_MAX external, t.length ≤ WIRE_MAX := by
  have hlist := wireWrite_length hW 0x00
  have hcommand := @command1_length WIRE_MAX hW
  unfold initSequence ssd1306_commandList
  simp only [List.forall_mem_append]
  exact ⟨⟨⟨⟨⟨⟨⟨⟨⟨⟨⟨hlist _, hcommand _⟩, hlist _⟩, hcommand _⟩, hlist _⟩, hcommand _⟩, hcommand _⟩,
    hcommand _⟩, hcommand _⟩, hcommand _⟩, hcommand _⟩, hlist _⟩

/-- A flush fits in the buffer of the bus; the panel takes from it the window and, in order, the
whole picture. -/
theorem display_sends {WIRE_MAX : Nat} (hW : 2 ≤ WIRE_MAX) (d : Display) :
    (∀ t ∈ d.display WIRE_MAX, t.length ≤ WIRE_MAX) ∧
    received 0x00 (d.display WIRE_MAX) = [0x22, 0, 0xFF, 0x21, 0, BitVec.ofNat 8 (d.WIDTH - 1)] ∧
    received 0x40 (d.display WIRE_MAX) = d.bufferBytes := by
  refine ⟨display_length hW d, ?_, received_picture hW d⟩
  unfold display ssd1306_commandList
  rw [received_append, received_append, received_wireWrite hW, received_other (by decide) hW]
  rfl

/-- A picture of the bytes 0, 1, 2 and so on. -/
theorem display_sends_counting :
    (∀ t ∈ (construct 128 32 fun i => BitVec.ofNat 8 i).display 128, t.length ≤ 128) ∧
    received 0x00 ((construct 128 32 fun i => BitVec.ofNat 8 i).display 128) =
      [0x22, 0, 0xFF, 0x21, 0, 127] ∧
    received 0x40 ((construct 128 32 fun i => BitVec.ofNat 8 i).display 128) =
      (List.range 512).map fun i => BitVec.ofNat 8 i :=
  display_sends (by decide) (construct 128 32 fun i => BitVec.ofNat 8 i)

end Display

end BuptCar
