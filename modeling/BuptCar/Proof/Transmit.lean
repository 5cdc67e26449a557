import BuptCar.Arduino.BluetoothSerial

/-!
# What the transmit task writes

`pending` are the accepted bytes that have not been handed to `esp_spp_write`. One step is
accounted for by `step_pending`: what it writes and what is pending behind it was pending before or
has just been accepted, in this order, and all of it where no link failure is in the way
(`step_pending_eq`). `transmit_order` follows for every order of the program's calls, the task's
passes, failed sends and connections.
-/

namespace BuptCar.BluetoothSerial

open scoped List

variable {α : Type}

def pending (s : BluetoothSerial α) : List α :=
  s.txBuffer ++ s.txTask.data ++ s.txQueue.toList.flatten

/-! ## What one operation can do -/

section
variable (s : BluetoothSerial α)

theorem write_cases (malloc : Bool) (buffer : List α) :
    s.write malloc buffer = (false, s) ∨
      ∃ q : Fifo (List α) TX_QUEUE_SIZE, s.client ≠ 0 ∧
        q.toList = s.txQueue.toList ++ [buffer] ∧
        s.write malloc buffer = (true, { s with txQueue := q }) := by
  unfold write
  split
  · exact .inl rfl
  · rename_i hc
    split
    · exact .inl rfl
    · split
      · exact .inl rfl
      · rcases s.txQueue.send_cases buffer with ⟨-, hs⟩ | ⟨q, hs, -, hq⟩
        · exact .inl (by rw [hs])
        · exact .inr ⟨q, hc, hq, by rw [hs]⟩

theorem sendBuffer_cases (outcome : Outcome) :
    ((outcome = .acked → s.client = 0) ∧ s.sendBuffer outcome = (false, none, s)) ∨
      s.sendBuffer outcome =
        (decide (outcome = .acked), some s.txBuffer, { s with txBuffer := [] }) := by
  unfold sendBuffer
  split
  · rename_i hc
    exact .inl ⟨fun _ => hc, rfl⟩
  · cases outcome with
    | congested => exact .inl ⟨nofun, rfl⟩
    | writeFailed => exact .inl ⟨nofun, rfl⟩
    | ackFailed => exact .inr rfl
    | acked => exact .inr rfl

/-- A pass changes the queue, the buffer and the task only; it moves the packet's bytes into the
buffer and the task's hand, in their order. -/
theorem receivePacket_cases : (s.txQueue.toList = [] ∧ s.receivePacket = s) ∨
    ∃ packet, ∃ q : Fifo (List α) TX_QUEUE_SIZE, ∃ buffer task,
      s.txQueue.toList = packet :: q.toList ∧
      s.receivePacket = { s with txQueue := q, txBuffer := buffer, txTask := task } ∧
      buffer ++ task.data = s.txBuffer ++ packet ∧ s.txBuffer <+: buffer ∧
      (s.txBuffer.length ≤ SPP_TX_MAX → buffer.length ≤ SPP_TX_MAX) ∧
      (task = .receiving → q.toList ≠ []) := by
  unfold receivePacket
  rcases s.txQueue.receive_cases with ⟨hnil, hr⟩ | ⟨packet, q, hr, hq⟩
  · rw [hr]
    exact .inl ⟨hnil, rfl⟩
  · rw [hr]
    refine .inr ⟨packet, q, ?_⟩
    dsimp only
    split
    · rename_i hfit
      have hlen : s.txBuffer.length ≤ SPP_TX_MAX → (s.txBuffer ++ packet).length ≤ SPP_TX_MAX := by
        rw [List.length_append]
        omega
      split
      · exact ⟨_, _, hq, rfl, List.append_nil _, List.prefix_append _ _, hlen, nofun⟩
      · by_cases hidle : q.toList = []
        · exact ⟨_, .flushing, hq, by simp [flushIfIdle, hidle], List.append_nil _,
            List.prefix_append _ _, hlen, nofun⟩
        · exact ⟨_, .receiving, hq, by simp [flushIfIdle, hidle], List.append_nil _,
            List.prefix_append _ _, hlen, fun _ => hidle⟩
    · refine ⟨_, _, hq, rfl, ?_, List.prefix_append _ _, fun h => ?_, nofun⟩
      · show _ ++ packet.take _ ++ packet.drop _ = _
        rw [List.append_assoc, List.take_append_drop]
      · rw [List.length_append, List.length_take]
        omega

/-- Behind a successful send the next bytes go into the empty buffer. -/
theorem continueSplitting_sent (data : List α) (h : s.txBuffer = []) : ∃ buffer task,
    s.continueSplitting data true = { s with txBuffer := buffer, txTask := task } ∧
      buffer ++ task.data = data ∧ buffer.length ≤ SPP_TX_MAX ∧
      (task = .receiving → buffer = [] ∨ s.txQueue.toList ≠ []) ∧
      task.data.length + (if task.sending then 1 else 0) ≤ data.length := by
  unfold continueSplitting
  rw [if_pos rfl]
  by_cases hlong : SPP_TX_MAX ≤ data.length
  · rw [if_pos hlong]
    refine ⟨_, _, rfl, List.take_append_drop _ _, ?_, nofun, ?_⟩
    · rw [List.length_take]
      exact Nat.min_le_left _ _
    · show (data.drop SPP_TX_MAX).length + 1 ≤ data.length
      rw [List.length_drop]
      have : SPP_TX_MAX = 330 := rfl
      omega
  · rw [if_neg hlong]
    by_cases hnil : data = []
    · subst hnil
      rw [if_neg (by simp)]
      exact ⟨s.txBuffer, .receiving, rfl, by rw [h]; rfl, by rw [h]; exact Nat.zero_le _,
        fun _ => .inl h, Nat.le_refl _⟩
    · have hpos := List.length_pos_iff.2 hnil
      have happ : s.txBuffer ++ data = data := by rw [h]; rfl
      rw [if_pos hnil]
      by_cases hidle : s.txQueue.toList = []
      · exact ⟨data, .flushing, by simp [flushIfIdle, hidle, happ], List.append_nil _, by omega,
          nofun, hpos⟩
      · exact ⟨data, .receiving, by simp [flushIfIdle, hidle, happ], List.append_nil _, by omega,
          fun _ => .inr hidle, Nat.zero_le _⟩

/-- A return of `_spp_send_buffer` leaves buffer and task as they are, or gives up the rest of the
packet in hand, or writes the buffer and then goes on with that rest or gives it up. -/
theorem sendReturns_cases (outcome : Outcome) :
    (s.txTask = .receiving ∧ s.sendReturns outcome = s) ∨
    (s.txTask.sending = true ∧
      (((outcome = .acked → s.client = 0) ∧ s.written (.send outcome) = none ∧
          s.sendReturns outcome = { s with txTask := .receiving }) ∨
        (s.written (.send outcome) = some s.txBuffer ∧
          s.sendReturns outcome = { s with txBuffer := [], txTask := .receiving } ∧
          (outcome = .acked → s.txTask.data = [])) ∨
        (s.written (.send outcome) = some s.txBuffer ∧
          ∃ data, s.txTask = .splitting data ∧ s.sendReturns outcome =
            { s with txBuffer := [] }.continueSplitting data true))) := by
  unfold sendReturns
  cases htask : s.txTask with
  | receiving => exact .inl ⟨rfl, rfl⟩
  | flushing =>
    refine .inr ⟨rfl, ?_⟩
    have hw : s.written (.send outcome) = (s.sendBuffer outcome).2.1 := by
      rw [written, htask]
      rfl
    rw [hw]
    rcases s.sendBuffer_cases outcome with ⟨hc, hs⟩ | hs
    · exact .inl ⟨hc, by rw [hs]; exact ⟨rfl, rfl⟩⟩
    · exact .inr (.inl (by rw [hs]; exact ⟨rfl, rfl, fun _ => rfl⟩))
  | splitting data =>
    refine .inr ⟨rfl, ?_⟩
    have hw : s.written (.send outcome) = (s.sendBuffer outcome).2.1 := by
      rw [written, htask]
      rfl
    rw [hw]
    rcases s.sendBuffer_cases outcome with ⟨hc, hs⟩ | hs
    · exact .inl ⟨hc, by rw [hs]; exact ⟨rfl, rfl⟩⟩
    · rw [hs]
      by_cases hok : outcome = .acked
      · exact .inr (.inr ⟨rfl, data, rfl, by rw [decide_eq_true hok, htask]⟩)
      · exact .inr (.inl ⟨rfl, by rw [decide_eq_false hok]; rfl, fun h => absurd h hok⟩)

end

/-! ## One step -/

/-- No link failure: no disconnection, and every send is acknowledged. -/
def Lossless : Input α → Prop
  | .close => False
  | .send outcome => outcome = .acked
  | _ => True

/-- Without a client there is nothing to send. -/
def Unused (s : BluetoothSerial α) : Prop :=
  s.client = 0 → s.txQueue.toList = [] ∧ s.txBuffer = [] ∧ s.txTask = .receiving

section
variable (s : BluetoothSerial α)

theorem pending_receivePacket (h : s.txTask = .receiving) :
    s.receivePacket.pending = s.pending := by
  rcases s.receivePacket_cases with ⟨-, hr⟩ | ⟨packet, q, buffer, task, hq, hr, hb, -, -⟩
  · rw [hr]
  · rw [hr, pending, pending, hq, h]
    show buffer ++ task.data ++ q.toList.flatten = s.txBuffer ++ [] ++ _
    rw [hb, List.append_nil, List.flatten_cons, List.append_assoc]

theorem pending_write (malloc : Bool) (buffer : List α) :
    (s.write malloc buffer).2.pending =
      s.pending ++ (s.accepted (.write malloc buffer)).toList.flatten := by
  have ha : s.accepted (.write malloc buffer) =
    if (s.write malloc buffer).1 then some buffer else none := rfl
  rcases s.write_cases malloc buffer with hw | ⟨q, -, hq, hw⟩
  · rw [ha, hw]
    simp
  · rw [ha, hw]
    simp [pending, hq]

theorem pending_srvOpen (handle : Nat) : (s.srvOpen handle).pending <+ s.pending := by
  unfold srvOpen
  split
  · exact (List.sublist_append_right s.txBuffer _).append_right _
  · exact List.Sublist.refl _

theorem pending_close : s.close.pending = s.pending := by
  unfold close
  split <;> rfl

theorem pending_read : s.read.2.pending = s.pending := by
  unfold read
  split <;> rfl

theorem pending_sendReturns (outcome : Outcome) :
    (s.written (.send outcome)).toList.flatten ++ (s.sendReturns outcome).pending <+
      s.pending := by
  rcases s.sendReturns_cases outcome with ⟨ht, hr⟩ | ⟨-, ⟨-, hw, hr⟩ | ⟨hw, hr, -⟩ |
    ⟨hw, data, ht, hr⟩⟩
  · rw [hr, written, ht]
    exact List.Sublist.refl _
  · rw [hw, hr]
    -- the rest of the packet is given up
    simp [pending]
  · rw [hw, hr]
    simp [pending]
  · obtain ⟨buffer, task, hc, hb, -⟩ := continueSplitting_sent { s with txBuffer := [] } data rfl
    rw [hw, hr, hc]
    simp [pending, ht, ← hb]

/-- What a step writes, and what is pending behind it, was pending or is accepted by the step. -/
theorem step_pending (i : Input α) : (s.written i).toList.flatten ++ (s.step i).pending <+
    s.pending ++ (s.accepted i).toList.flatten := by
  cases i with
  | write malloc buffer =>
    show (s.write malloc buffer).2.pending <+ _
    rw [pending_write]
  | receive =>
    show (if s.txTask.sending then s else s.receivePacket).pending <+ s.pending ++ []
    rw [List.append_nil]
    cases ht : s.txTask with
    | receiving => exact (s.pending_receivePacket ht).symm ▸ List.Sublist.refl _
    | flushing => exact List.Sublist.refl _
    | splitting data => exact List.Sublist.refl _
  | send outcome => exact (s.pending_sendReturns outcome).trans (List.sublist_append_left _ _)
  | dataInd data => exact List.sublist_append_left s.pending []
  | read =>
    show s.read.2.pending <+ s.pending ++ []
    rw [pending_read, List.append_nil]
  | srvOpen handle => exact (s.pending_srvOpen handle).trans (List.sublist_append_left _ _)
  | close =>
    show s.close.pending <+ s.pending ++ []
    rw [pending_close, List.append_nil]

/-- Without a link failure the account is exact. -/
theorem step_pending_eq {i : Input α} (hi : Lossless i) (hs : s.Unused) :
    (s.written i).toList.flatten ++ (s.step i).pending =
      s.pending ++ (s.accepted i).toList.flatten := by
  cases i with
  | write malloc buffer => exact s.pending_write malloc buffer
  | receive =>
    show (if s.txTask.sending then s else s.receivePacket).pending = s.pending ++ []
    rw [List.append_nil]
    cases ht : s.txTask with
    | receiving => exact s.pending_receivePacket ht
    | flushing => rfl
    | splitting data => rfl
  | send outcome =>
    show _ ++ (s.sendReturns outcome).pending = s.pending ++ []
    rw [List.append_nil]
    rcases s.sendReturns_cases outcome with ⟨ht, hr⟩ | ⟨hsend, ⟨hc, -⟩ | ⟨hw, hr, hd⟩ |
      ⟨hw, data, ht, hr⟩⟩
    · rw [hr, written, ht]
      rfl
    · rw [(hs (hc hi)).2.2] at hsend
      cases hsend
    · rw [hw, hr]
      simp [pending, hd hi]
    · obtain ⟨buffer, task, hc, hb, -⟩ := continueSplitting_sent { s with txBuffer := [] } data rfl
      rw [hw, hr, hc]
      simp [pending, ht, ← hb]
  | dataInd data => exact (List.append_nil s.pending).symm
  | read =>
    show s.read.2.pending = s.pending ++ []
    rw [pending_read, List.append_nil]
  | srvOpen handle =>
    show (s.srvOpen handle).pending = s.pending ++ []
    rw [List.append_nil]
    by_cases hc : s.client = 0
    · -- the buffer it empties is empty
      rw [srvOpen, if_pos hc, pending, pending, (hs hc).2.1]
    · rw [srvOpen, if_neg hc]
      rfl
  | close => exact hi.elim

end

/-! ## Order -/

/-- The buffer is never overrun. -/
def Bounded (s : BluetoothSerial α) : Prop := s.txBuffer.length ≤ SPP_TX_MAX

theorem Bounded.step {s : BluetoothSerial α} (h : s.Bounded) (i : Input α) :
    (s.step i).Bounded := by
  unfold Bounded at *
  cases i with
  | write malloc buffer =>
    show (s.write malloc buffer).2.txBuffer.length ≤ SPP_TX_MAX
    rcases s.write_cases malloc buffer with hw | ⟨q, -, -, hw⟩
    · rw [hw]
      exact h
    · rw [hw]
      exact h
  | receive =>
    show (if s.txTask.sending then s else s.receivePacket).txBuffer.length ≤ SPP_TX_MAX
    split
    · exact h
    · rcases s.receivePacket_cases with ⟨-, hr⟩ | ⟨packet, q, buffer, task, -, hr, -, -, hle, -⟩
      · rw [hr]
        exact h
      · rw [hr]
        exact hle h
  | send outcome =>
    show (s.sendReturns outcome).txBuffer.length ≤ SPP_TX_MAX
    rcases s.sendReturns_cases outcome with
      ⟨-, hr⟩ | ⟨-, ⟨-, -, hr⟩ | ⟨-, hr, -⟩ | ⟨-, data, -, hr⟩⟩
    · rw [hr]
      exact h
    · rw [hr]
      exact h
    · rw [hr]
      exact Nat.zero_le _
    · obtain ⟨buffer, task, hc, -, hle, -⟩ :=
        continueSplitting_sent { s with txBuffer := [] } data rfl
      rw [hr, hc]
      exact hle
  | dataInd data => exact h
  | read =>
    show s.read.2.txBuffer.length ≤ SPP_TX_MAX
    unfold read
    split <;> exact h
  | srvOpen handle =>
    show (s.srvOpen handle).txBuffer.length ≤ SPP_TX_MAX
    unfold srvOpen
    split
    · exact Nat.zero_le _
    · exact h
  | close =>
    show s.close.txBuffer.length ≤ SPP_TX_MAX
    unfold close
    split <;> exact h

theorem written_mem {s : BluetoothSerial α} {i : Input α} {chunk : List α}
    (h : chunk ∈ (s.written i).toList) : chunk = s.txBuffer := by
  cases i with
  | send outcome =>
    rcases s.sendReturns_cases outcome with ⟨ht, -⟩ | ⟨-, ⟨-, hw, -⟩ | ⟨hw, -⟩ | ⟨hw, -⟩⟩
    · rw [written, ht] at h
      cases h
    · rw [hw] at h
      cases h
    · rw [hw] at h
      exact List.mem_singleton.1 h
    · rw [hw] at h
      exact List.mem_singleton.1 h
  | _ => cases h

/-- **The transmit task keeps the order.** After any sequence of calls, passes, sends with any
outcome and connections, what the stack was given, followed by what is pending, is a subsequence
of the bytes accepted: nothing is invented, repeated or overtaken. Every chunk fits the buffer, and
so does the buffer's content. -/
theorem transmit_order (is : List (Input α)) :
    writtenBytes is ++ ((machine α).run is).pending <+ acceptedBytes is ∧
    (∀ chunk ∈ (machine α).labels written is, chunk.length ≤ SPP_TX_MAX) ∧
    ((machine α).run is).txBuffer.length ≤ SPP_TX_MAX := by
  refine Machine.run_history (M := machine α) (f := written) (g := accepted)
    (P := fun s ws as => ws.flatten ++ s.pending <+ as.flatten ∧
      (∀ chunk ∈ ws, chunk.length ≤ SPP_TX_MAX) ∧ s.Bounded)
    ⟨List.Sublist.refl _, nofun, Nat.zero_le _⟩ ?_
  rintro s i - ws as ⟨hsub, hws, hb⟩
  refine ⟨?_, fun chunk hc => ?_, hb.step i⟩
  · rw [List.flatten_append, List.flatten_append, List.append_assoc]
    refine ((s.step_pending i).append_left _).trans ?_
    rw [← List.append_assoc]
    exact hsub.append_right _
  · rcases List.mem_append.1 hc with hc | hc
    · exact hws chunk hc
    · rw [written_mem hc]
      exact hb

end BuptCar.BluetoothSerial
