import BuptCar.Proof.Bus
import BuptCar.Wiring

/-!
# What the calls of `Wire.cpp` put on the bus

Between two transmissions nobody has the lock (`Free`), so each of the program's calls returns, and
what it puts on the bus is one list of transfers (`Puts`): a transaction of the display, a command
of the colour sensor, the twelve transfers of a reading.
-/

namespace BuptCar

open Call

namespace TwoWire

/-- Between transmissions, at this frequency. -/
structure Free (frequency : Nat) (w : TwoWire) : Prop where
  unlocked : w.locked = false
  bufferSize : w.bufferSize = I2C_BUFFER_LENGTH
  frequency : w.frequency = frequency

/-- What is put on the bus up to a free state. -/
structure Puts (frequency : Nat) (ts : List Transfer) (w w' : TwoWire) : Prop where
  free : Free frequency w'
  transfers : w'.transfers = w.transfers ++ ts

theorem Puts.trans {w₁ w₂ w₃ : TwoWire} {f g : Nat} {ts us : List Transfer}
    (h : Puts f ts w₁ w₂) (h' : Puts g us w₂ w₃) : Puts g (ts ++ us) w₁ w₃ :=
  ⟨h'.free, by rw [h'.transfers, h.transfers, List.append_assoc]⟩

/-- The transmission in hand. -/
structure Holds (frequency address : Nat) (bytes : List (BitVec 8)) (log : List Transfer)
    (w : TwoWire) : Prop where
  bufferSize : w.bufferSize = I2C_BUFFER_LENGTH
  frequency : w.frequency = frequency
  txAddress : w.txAddress = address
  txBuffer : w.txBuffer = bytes
  transfers : w.transfers = log

variable {w : TwoWire} {frequency address : Nat} {bytes : List (BitVec 8)} {log : List Transfer}

theorem takeLock_eq (h : w.locked = false) : takeLock w = some (⟨⟩, { w with locked := true }) := by
  change (if w.locked then Call.wait else modify fun w => { w with locked := true } :
    Call TwoWire PUnit) w = _
  rw [h]
  rfl

theorem setClock_returns (h : Free frequency w) (frequency' : Nat) :
    (setClock frequency').Returns w fun _ w' => Puts frequency' [] w w' := by
  unfold setClock
  have htake : takeLock.Returns w fun _ w' => w' = { w with locked := true } :=
    ⟨_, _, takeLock_eq h.unlocked, rfl⟩
  refine htake.bind fun _ w' hw' => ?_
  subst hw'
  exact ⟨_, _, rfl, ⟨rfl, h.bufferSize, rfl⟩, (List.append_nil _).symm⟩

theorem beginTransmission_returns (h : Free frequency w) (address : Nat) :
    (beginTransmission address).Returns w fun _ w' =>
      Holds frequency address [] w.transfers w' := by
  obtain ⟨hlocked, hsize, hfreq⟩ := h
  obtain ⟨bufferSize, rxBuffer, txBuffer, txAddress, nonStop, locked, frequency', transfers⟩ := w
  dsimp only at hlocked hsize hfreq ⊢
  subst hlocked hsize hfreq
  cases nonStop <;> exact ⟨_, _, rfl, rfl, rfl, rfl, rfl, rfl⟩

theorem write_returns (h : Holds frequency address bytes log w)
    (hlen : bytes.length < I2C_BUFFER_LENGTH) (data : BitVec 8) :
    (discard (write data) : Call TwoWire PUnit).Returns w fun _ w' =>
      Holds frequency address (bytes ++ [data]) log w' := by
  have hroom : ¬w.txBuffer.length ≥ w.bufferSize := by
    rw [h.txBuffer, h.bufferSize]
    omega
  have hwrite : (write data).Returns w fun _ w' =>
      Holds frequency address (bytes ++ [data]) log w' := by
    unfold write
    refine returns_get ?_
    rw [if_neg hroom]
    exact ⟨_, _, rfl, h.bufferSize, h.frequency, h.txAddress, by rw [← h.txBuffer], h.transfers⟩
  exact hwrite.discard fun _ _ hw' => hw'

theorem readBytes_returns (length : Nat) (w : TwoWire) :
    (readBytes length).Returns w fun buffer w' =>
      buffer = w.rxBuffer.take length ∧ w' = { w with rxBuffer := w.rxBuffer.drop length } := by
  induction length generalizing w with
  | zero => exact returns_pure ⟨rfl, rfl⟩
  | succ length ih =>
    unfold readBytes
    have hread : read.Returns w fun value w' =>
        value = w.rxBuffer.head? ∧ w' = { w with rxBuffer := w.rxBuffer.tail } := by
      unfold read
      refine returns_get ?_
      cases hrx : w.rxBuffer with
      | nil => exact ⟨_, _, rfl, rfl, by rw [List.tail_nil, ← hrx]⟩
      | cons value rxBuffer => exact ⟨_, _, rfl, rfl, rfl⟩
    refine hread.bind ?_
    rintro _ _ ⟨rfl, rfl⟩
    cases hrx : w.rxBuffer with
    | nil => exact returns_pure ⟨rfl, rfl⟩
    | cons value rxBuffer =>
      refine (ih _).bind ?_
      rintro _ _ ⟨rfl, rfl⟩
      exact returns_pure ⟨rfl, rfl⟩

end TwoWire

namespace I2c

open TwoWire

variable {bus : I2c} {w : TwoWire} {frequency address : Nat} {bytes : List (BitVec 8)}
  {log : List Transfer}

theorem endTransmission_returns (h : Holds frequency address bytes log w) :
    (discard (bus.endTransmission true) : Call TwoWire PUnit).Returns w fun _ w' =>
      Free frequency w' ∧ w'.transfers = log ++ [.write address bytes frequency] := by
  have hend : (bus.endTransmission true).Returns w fun _ w' =>
      Free frequency w' ∧ w'.transfers = log ++ [.write address bytes frequency] := by
    obtain ⟨hsize, rfl, rfl, rfl, rfl⟩ := h
    unfold endTransmission
    refine returns_get ?_
    rw [if_pos rfl]
    dsimp only
    cases bus.err (w.transfers ++ [.write w.txAddress w.txBuffer w.frequency]) <;>
      exact ⟨_, _, rfl, ⟨rfl, hsize, rfl⟩, rfl⟩
  exact hend.discard fun _ _ hw' => hw'

theorem endTransmission_nonStop (h : Holds frequency address bytes log w) :
    (discard (bus.endTransmission false) : Call TwoWire PUnit).Returns w fun _ w' =>
      Holds frequency address bytes log w' ∧ w'.nonStop = true :=
  ⟨⟨⟩, { w with nonStop := true }, rfl,
    ⟨h.bufferSize, h.frequency, h.txAddress, h.txBuffer, h.transfers⟩, rfl⟩

theorem requestFrom_returns (h : Holds frequency address bytes log w) (hns : w.nonStop = true)
    (size : Nat) :
    (discard (bus.requestFrom address size) : Call TwoWire PUnit).Returns w fun _ w' =>
      Holds frequency address bytes (log ++ [.writeRead address bytes size frequency]) w' ∧
      w'.rxBuffer =
        (bus.bytes (log ++ [.writeRead address bytes size frequency])).take size := by
  have hrequest : (bus.requestFrom address size).Returns w fun _ w' =>
      Holds frequency address bytes (log ++ [.writeRead address bytes size frequency]) w' ∧
      w'.rxBuffer =
        (bus.bytes (log ++ [.writeRead address bytes size frequency])).take size := by
    obtain ⟨hsize, rfl, rfl, rfl, rfl⟩ := h
    unfold requestFrom
    refine returns_get ?_
    rw [if_pos hns]
    refine returns_get ?_
    rw [if_neg (fun hne => hne rfl)]
    exact ⟨_, _, rfl, ⟨hsize, rfl, rfl, rfl, rfl⟩, rfl⟩
  exact hrequest.discard fun _ _ hw' => hw'

theorem transmit_returns (h : Free frequency w) {t : Display.Transmission}
    (hlen : t.length ≤ I2C_BUFFER_LENGTH) :
    (bus.transmit t).Returns w fun _ w' => Puts frequency [.write i2caddr t frequency] w w' := by
  unfold transmit
  refine (beginTransmission_returns h i2caddr).bind fun _ w₁ h₁ => ?_
  refine Returns.bind (R := fun _ w₂ => Holds frequency i2caddr t w.transfers w₂)
    (returns_forM (I := fun done w₂ => Holds frequency i2caddr done w.transfers w₂) h₁ ?_)
    fun _ w₂ h₂ => ?_
  · intro done byte rest w₂ ht h₂
    refine write_returns h₂ ?_ byte
    rw [ht, List.length_append, List.length_cons] at hlen
    omega
  · exact (endTransmission_returns h₂).mono fun _ w₃ h₃ => ⟨h₃.1, h₃.2⟩

/-- What a transaction of the display puts on the bus. -/
def shown (ts : List Display.Transmission) : List Transfer :=
  ts.map fun t => .write i2caddr t wireClk

theorem transaction_returns (h : Free frequency w) {ts : List Display.Transmission}
    (hlen : ∀ t ∈ ts, t.length ≤ I2C_BUFFER_LENGTH) :
    (bus.transaction ts).Returns w fun _ w' => Puts restoreClk (shown ts) w w' := by
  unfold transaction
  refine (setClock_returns h wireClk).bind fun _ w₁ h₁ => ?_
  refine Returns.bind (R := fun _ w₂ => Puts wireClk (shown ts) w w₂) (returns_forM
    (I := fun done w₂ => Puts wireClk (shown done) w w₂) h₁ ?_) fun _ w₂ h₂ => ?_
  · intro done t rest w₂ hts h₂
    have ht : t ∈ ts := by rw [hts]; exact List.mem_append_right _ List.mem_cons_self
    refine (transmit_returns h₂.free (hlen t ht)).mono fun _ w₃ h₃ => ?_
    unfold shown
    rw [List.map_append]
    exact h₂.trans h₃
  · refine (setClock_returns h₂.free restoreClk).mono fun _ w₃ h₃ => ?_
    rw [← List.append_nil (shown ts)]
    exact h₂.trans h₃

/-- The byte that sets the lamp. -/
def lampByte (brightness : BitVec 8) : BitVec 8 := 0x00 ||| (10 - clamp brightness 0 10) <<< 4

theorem setBrightness_returns (h : Free frequency w) (brightness : BitVec 8) :
    (bus.setBrightness brightness).Returns w fun _ w' =>
      Puts frequency [.write colorSensorAddr [0x10, lampByte brightness] frequency] w w' := by
  unfold setBrightness
  refine (beginTransmission_returns h colorSensorAddr).bind fun _ w₁ h₁ => ?_
  refine (write_returns h₁ (by decide) _).bind fun _ w₂ h₂ => ?_
  refine (write_returns h₂ (by decide) _).bind fun _ w₃ h₃ => ?_
  exact (endTransmission_returns h₃).mono fun _ w₄ h₄ => ⟨h₄.1, h₄.2⟩

theorem requestBuffer_returns (h : Free frequency w) (address : Nat) (register : BitVec 8)
    (size : Nat) :
    (bus.requestBuffer address register size).Returns w fun buffer w' =>
      Puts frequency [.writeRead address [register] size frequency,
        .write address [register] frequency] w w' ∧
      buffer = (bus.bytes
        (w.transfers ++ [.writeRead address [register] size frequency])).take size := by
  unfold requestBuffer
  refine (beginTransmission_returns h address).bind fun _ w₁ h₁ => ?_
  refine (write_returns h₁ (by decide) register).bind fun _ w₂ h₂ => ?_
  refine (endTransmission_nonStop h₂).bind ?_
  rintro _ w₃ ⟨h₃, hns⟩
  refine (requestFrom_returns h₃ hns size).bind ?_
  rintro _ w₄ ⟨h₄, hrx⟩
  refine (readBytes_returns size w₄).bind ?_
  rintro _ w₅ ⟨rfl, hw₅⟩
  have h₅ : Holds frequency address [register]
      (w.transfers ++ [.writeRead address [register] size frequency]) w₅ := by
    rw [hw₅]
    exact ⟨h₄.bufferSize, h₄.frequency, h₄.txAddress, h₄.txBuffer, h₄.transfers⟩
  refine (endTransmission_returns h₅).bind ?_
  rintro _ w₆ ⟨hfree, htransfers⟩
  refine returns_pure ⟨⟨hfree, ?_⟩, ?_⟩
  · rw [htransfers, List.append_assoc]
    rfl
  · rw [hrx, List.take_take, Nat.min_self]
    rfl

/-! ## The twelve transfers of a reading -/

def readRequest (frequency : Nat) (i : Fin 6) : Transfer :=
  .writeRead colorSensorAddr [colorBufferAddr + BitVec.ofNat 8 i] 1 frequency

/-- The read of one byte. -/
def readByte (frequency : Nat) (i : Fin 6) : List Transfer :=
  [readRequest frequency i, .write colorSensorAddr [colorBufferAddr + BitVec.ofNat 8 i] frequency]

/-- The reads of the bytes `is`. -/
def reading (frequency : Nat) (is : List (Fin 6)) : List Transfer := is.flatMap (readByte frequency)

/-- What a reading that begins behind the transfers `log` gives: the first byte of each answer. -/
def delivered (bus : I2c) (frequency : Nat) (log : List Transfer) : RawBuff := fun i =>
  (((bus.bytes (log ++ (reading frequency ((List.finRange 6).take i) ++
    [readRequest frequency i]))).head?).map UInt8.ofBitVec).getD 0

theorem take_of_finRange_eq {n : Nat} {done rest : List (Fin n)} {i : Fin n}
    (h : List.finRange n = done ++ i :: rest) : (List.finRange n).take i = done := by
  have hlt : done.length < (List.finRange n).length := by
    rw [h, List.length_append, List.length_cons]
    omega
  have hi : (List.finRange n)[done.length] = i := by simp [h]
  rw [List.getElem_finRange] at hi
  have hval : (i : Nat) = done.length := by rw [← hi]; rfl
  rw [hval, h]
  exact List.take_left' rfl

theorem getColor_returns (h : Free frequency w) :
    bus.getColor.Returns w fun rawBuff w' =>
      Puts frequency (reading frequency (List.finRange 6)) w w' ∧
      rawBuff = bus.delivered frequency w.transfers := by
  unfold getColor
  refine (returns_foldlM (I := fun done rawBuff w' =>
    Puts frequency (reading frequency done) w w' ∧
    ∀ i, rawBuff i = if i ∈ done then bus.delivered frequency w.transfers i else 0)
    ⟨⟨h, (List.append_nil _).symm⟩, fun i => rfl⟩ ?_).mono ?_
  · rintro done i rest rawBuff w₁ hi ⟨h₁, hraw⟩
    unfold readRegister
    refine (requestBuffer_returns h₁.free _ _ 1).bind ?_
    rintro buffer w₂ ⟨h₂, hbuffer⟩
    have hputs : Puts frequency (reading frequency (done ++ [i])) w w₂ := by
      unfold reading
      rw [List.flatMap_append, List.flatMap_singleton]
      exact h₁.trans h₂
    have hbyte : bus.delivered frequency w.transfers i =
        (buffer.head?.map UInt8.ofBitVec).getD 0 := by
      unfold delivered
      rw [hbuffer, take_of_finRange_eq hi, h₁.transfers, List.append_assoc, List.head?_take]
      rfl
    have hmem : ∀ j, j ≠ i → (j ∈ done ++ [i] ↔ j ∈ done) := fun j hj => by simp [hj]
    cases buffer with
    | nil =>
      -- the byte is still the 0 of `memset`
      refine returns_pure ⟨hputs, fun j => ?_⟩
      rw [hraw j]
      by_cases hj : j = i
      · subst hj
        rw [hbyte]
        simp
      · simp only [hmem j hj]
    | cons byte buffer =>
      refine returns_pure ⟨hputs, fun j => ?_⟩
      by_cases hj : j = i
      · subst hj
        rw [Function.update_self, if_pos (List.mem_append_right _ List.mem_cons_self), hbyte]
        rfl
      · rw [Function.update_of_ne hj, hraw j]
        simp only [hmem j hj]
  · rintro rawBuff w' ⟨hputs, hraw⟩
    refine ⟨hputs, funext fun i => ?_⟩
    rw [hraw i, if_pos (List.mem_finRange i)]

end I2c

end BuptCar
