import BuptCar.Proof.Transmit
import Mathlib.Data.List.Forall2

/-!
# What becomes of the packets

* `transmit_cuts`: as long as the client stays, packets are only cut at their end, whatever sends
  fail. `Cutting` is the invariant: which packets the task has taken, and what it has kept of each.
* `transmit_all`: if no send fails either, nothing is lost, and finitely many rounds of the task
  write everything. `work` bounds the rounds; each of them leaves less of it (`work_round`).
-/

namespace BuptCar.BluetoothSerial

open scoped List

variable {α : Type}

/-! ## Packets -/

/-- `kept` are the packets taken from the queue, each cut to the part that has not been given up;
only the last one can be in the task's hand still. -/
structure Cutting (s : BluetoothSerial α) (ws as : List (List α)) (taken kept : List (List α)) :
    Prop where
  accepted : as = taken ++ s.txQueue.toList
  cut : List.Forall₂ (· <+: ·) kept taken
  bytes : ws.flatten ++ s.txBuffer = kept.flatten
  last : s.txTask.data = [] ∨ ∃ ts p ks k, taken = ts ++ [p] ∧ kept = ks ++ [k] ∧
    List.Forall₂ (· <+: ·) ks ts ∧ k ++ s.txTask.data = p
  client : s.client = 0 → as = []

theorem Cutting.congr {s t : BluetoothSerial α} {ws as taken kept : List (List α)}
    (h : Cutting s ws as taken kept) (hc : t.client = s.client) (hq : t.txQueue = s.txQueue)
    (hb : t.txBuffer = s.txBuffer) (ht : t.txTask = s.txTask) : Cutting t ws as taken kept where
  accepted := hq ▸ h.accepted
  cut := h.cut
  bytes := hb ▸ h.bytes
  last := ht ▸ h.last
  client := hc ▸ h.client

theorem Cutting.write {s : BluetoothSerial α} {ws as taken kept : List (List α)}
    (h : Cutting s ws as taken kept) (malloc : Bool) (buffer : List α) :
    Cutting (s.write malloc buffer).2 ws (as ++ (s.accepted (.write malloc buffer)).toList)
      taken kept := by
  have ha : s.accepted (.write malloc buffer) =
    if (s.write malloc buffer).1 then some buffer else none := rfl
  rcases s.write_cases malloc buffer with hw | ⟨q, hc, hq, hw⟩
  · rw [ha, hw]
    simpa using h
  · rw [ha, hw]
    exact
      { accepted := by simp [hq, h.accepted]
        cut := h.cut
        bytes := h.bytes
        last := h.last
        client := fun hz => absurd hz hc }

theorem Cutting.receivePacket {s : BluetoothSerial α} {ws as taken kept : List (List α)}
    (h : Cutting s ws as taken kept) : ∃ taken kept, Cutting s.receivePacket ws as taken kept := by
  rcases s.receivePacket_cases with
    ⟨-, hr⟩ | ⟨packet, q, buffer, task, hq, hr, hb, ⟨k, hk⟩, -⟩
  · rw [hr]
    exact ⟨taken, kept, h⟩
  · rw [hr]
    have hp : k ++ task.data = packet := by
      rw [← hk, List.append_assoc] at hb
      exact List.append_cancel_left hb
    have hkp : k <+: packet := ⟨task.data, hp⟩
    exact ⟨taken ++ [packet], kept ++ [k],
      { accepted := by simp [h.accepted, hq]
        cut := List.rel_append h.cut (.cons hkp .nil)
        bytes := by simp [← hk, ← h.bytes]
        last := .inr ⟨taken, packet, kept, k, rfl, rfl, h.cut, hp⟩
        client := h.client }⟩

theorem Cutting.send {s : BluetoothSerial α} {ws as taken kept : List (List α)}
    (h : Cutting s ws as taken kept) (outcome : Outcome) : ∃ kept,
      Cutting (s.sendReturns outcome) (ws ++ (s.written (.send outcome)).toList) as taken kept := by
  rcases s.sendReturns_cases outcome with ⟨ht, hr⟩ | ⟨-, ⟨-, hw, hr⟩ | ⟨hw, hr, -⟩ |
    ⟨hw, data, ht, hr⟩⟩
  · have hw : s.written (.send outcome) = none := by
      rw [written, ht]
      rfl
    rw [hr, hw]
    exact ⟨kept, by simpa using h⟩
  · rw [hr, hw]
    exact ⟨kept, h.accepted, h.cut, by simpa using h.bytes, .inl rfl, h.client⟩
  · rw [hr, hw]
    exact ⟨kept, h.accepted, h.cut, by simpa using h.bytes, .inl rfl, h.client⟩
  · obtain ⟨buffer, task, hc, hb, -⟩ := continueSplitting_sent { s with txBuffer := [] } data rfl
    rw [hr, hw, hc]
    have hlast := h.last
    rw [ht] at hlast
    rcases hlast with hnil | ⟨ts, p, ks, k, rfl, rfl, hks, rfl⟩
    · obtain ⟨rfl, hd⟩ : buffer = [] ∧ task.data = [] := by
        rw [← List.append_eq_nil_iff, hb]
        exact hnil
      exact ⟨kept, h.accepted, h.cut, by simpa using h.bytes, .inl hd, h.client⟩
    · -- the packet in hand is kept up to the bytes that are in the buffer now
      have hpre : k ++ buffer <+: k ++ data := by
        rw [← hb, ← List.append_assoc]
        exact List.prefix_append _ _
      have hbytes := h.bytes
      refine ⟨ks ++ [k ++ buffer],
        { accepted := h.accepted
          cut := List.rel_append hks (.cons hpre .nil)
          bytes := ?_
          last := .inr ⟨ts, _, ks, _, rfl, rfl, hks, by simp [← hb]⟩
          client := h.client }⟩
      rw [List.flatten_append, List.flatten_singleton] at hbytes
      simp [hbytes]

theorem Cutting.srvOpen {s : BluetoothSerial α} {ws as taken kept : List (List α)}
    (h : Cutting s ws as taken kept) (handle : Nat) :
    Cutting (s.srvOpen handle) ws as taken kept := by
  unfold BluetoothSerial.srvOpen
  split
  · rename_i hc
    -- nothing has been accepted yet, so the buffer is empty anyway
    have has := h.client hc
    have hacc := h.accepted
    rw [has] at hacc
    obtain ⟨rfl, -⟩ := List.append_eq_nil_iff.1 hacc.symm
    obtain rfl := List.forall₂_nil_right_iff.1 h.cut
    have hb := List.append_eq_nil_iff.1 h.bytes
    exact ⟨h.accepted, h.cut, by simpa using hb.1, h.last, fun _ => has⟩
  · rename_i hc
    exact ⟨h.accepted, h.cut, h.bytes, h.last, h.client⟩

theorem Cutting.step {s : BluetoothSerial α} {i : Input α} {ws as taken kept : List (List α)}
    (hi : i ≠ .close) (h : Cutting s ws as taken kept) : ∃ taken kept,
      Cutting (s.step i) (ws ++ (s.written i).toList) (as ++ (s.accepted i).toList) taken kept := by
  have happ : ∀ xs : List (List α), xs ++ [] = xs := List.append_nil
  cases i with
  | write malloc buffer =>
    show ∃ taken kept, Cutting (s.write malloc buffer).2 (ws ++ []) _ taken kept
    rw [happ]
    exact ⟨taken, kept, h.write malloc buffer⟩
  | receive =>
    show ∃ taken kept, Cutting (if s.txTask.sending then s else s.receivePacket) (ws ++ [])
      (as ++ []) taken kept
    rw [happ, happ]
    cases ht : s.txTask with
    | receiving => exact h.receivePacket
    | flushing => exact ⟨taken, kept, h⟩
    | splitting data => exact ⟨taken, kept, h⟩
  | send outcome =>
    show ∃ taken kept, Cutting (s.sendReturns outcome) _ (as ++ []) taken kept
    rw [happ]
    exact ⟨taken, h.send outcome⟩
  | dataInd data =>
    show ∃ taken kept, Cutting (s.dataInd data) (ws ++ []) (as ++ []) taken kept
    rw [happ, happ]
    exact ⟨taken, kept, h.congr rfl rfl rfl rfl⟩
  | read =>
    show ∃ taken kept, Cutting s.read.2 (ws ++ []) (as ++ []) taken kept
    rw [happ, happ]
    unfold read
    split
    · exact ⟨taken, kept, h⟩
    · exact ⟨taken, kept, h.congr rfl rfl rfl rfl⟩
  | srvOpen handle =>
    show ∃ taken kept, Cutting (s.srvOpen handle) (ws ++ []) (as ++ []) taken kept
    rw [happ, happ]
    exact ⟨taken, kept, h.srvOpen handle⟩
  | close => exact absurd rfl hi

/-- The packets cut, with the bytes in the task's hand put back. -/
theorem Cutting.pending {s : BluetoothSerial α} {ws as taken kept : List (List α)}
    (h : Cutting s ws as taken kept) :
    ∃ cuts, List.Forall₂ (· <+: ·) cuts as ∧ ws.flatten ++ s.pending = cuts.flatten := by
  have hrefl : List.Forall₂ (· <+: ·) s.txQueue.toList s.txQueue.toList :=
    List.forall₂_same.2 fun _ _ => List.prefix_rfl
  have hbytes := h.bytes
  rcases h.last with hd | ⟨ts, p, ks, k, rfl, rfl, hks, hp⟩
  · refine ⟨kept ++ s.txQueue.toList, h.accepted ▸ List.rel_append h.cut hrefl, ?_⟩
    simp [BluetoothSerial.pending, hd, ← hbytes]
  · refine ⟨ks ++ [p] ++ s.txQueue.toList,
      h.accepted ▸ List.rel_append (List.rel_append hks (.cons List.prefix_rfl .nil)) hrefl, ?_⟩
    rw [List.flatten_append, List.flatten_singleton] at hbytes
    rw [BluetoothSerial.pending, ← List.append_assoc, ← List.append_assoc, hbytes]
    simp [← hp]

/-- **Packets are only cut at their end.** While no connection is closed, whatever sends fail, the
bytes written and pending are the accepted packets in their order, each of them cut to a prefix. -/
theorem transmit_cuts {is : List (Input α)} (h : Input.close ∉ is) :
    ∃ cuts, List.Forall₂ (· <+: ·) cuts ((machine α).labels accepted is) ∧
      writtenBytes is ++ ((machine α).run is).pending = cuts.flatten := by
  obtain ⟨taken, kept, hc⟩ : ∃ taken kept, Cutting ((machine α).run is)
      ((machine α).labels written is) ((machine α).labels accepted is) taken kept := by
    refine Machine.run_history (M := machine α) (f := written) (g := accepted)
      (P := fun s ws as => ∃ taken kept, Cutting s ws as taken kept)
      ⟨[], [], rfl, .nil, rfl, .inl rfl, fun _ => rfl⟩ ?_
    rintro s i hi ws as ⟨taken, kept, hc⟩
    exact hc.step fun heq => h (heq ▸ hi)
  exact hc.pending

/-- A packet longer than the buffer, whose first send fails. -/
def congestedRun : List (Input Nat) :=
  [.srvOpen 1, .write true (List.range 400), .receive, .send .congested, .send .acked]

/-- The rest of the packet is given up. -/
theorem transmit_cuts_congested : List.range 330 <+: List.range 400 ∧
    writtenBytes congestedRun ++ ((machine Nat).run congestedRun).pending = List.range 330 := by
  have hclose : Input.close ∉ congestedRun := by simp [congestedRun]
  obtain ⟨cuts, hcuts, hbytes⟩ := transmit_cuts hclose
  have haccepted : (machine Nat).labels accepted congestedRun = [List.range 400] := by
    decide +kernel
  have hsent : writtenBytes congestedRun ++ ((machine Nat).run congestedRun).pending =
      List.range 330 := by decide +kernel
  rw [haccepted] at hcuts
  obtain ⟨cut, rest, hcut, hrest, rfl⟩ := List.forall₂_cons_right_iff.1 hcuts
  obtain rfl := List.forall₂_nil_right_iff.1 hrest
  rw [List.flatten_singleton, hsent] at hbytes
  rw [hbytes]
  exact ⟨hcut, hsent.trans hbytes⟩

/-! ## Without failures -/

/-- Between the passes of a run without failures: nothing is left over without a client, and
nothing stays in the buffer while the task waits for a packet and none is queued. -/
structure Sound (s : BluetoothSerial α) : Prop where
  unused : s.Unused
  settled : s.txTask = .receiving → s.txQueue.toList = [] → s.txBuffer = []

theorem Sound.send {s : BluetoothSerial α} (h : s.Sound) : (s.sendReturns .acked).Sound := by
  rcases s.sendReturns_cases .acked with ⟨-, hr⟩ | ⟨hsend, h3⟩
  · rw [hr]
    exact h
  · have hc : s.client ≠ 0 := by
      intro hz
      rw [(h.unused hz).2.2] at hsend
      cases hsend
    rcases h3 with ⟨hz, -⟩ | ⟨-, hr, -⟩ | ⟨-, data, -, hr⟩
    · exact absurd (hz rfl) hc
    · rw [hr]
      exact ⟨fun hz => absurd hz hc, fun _ _ => rfl⟩
    · obtain ⟨buffer, task, hs, -, -, hidle, -⟩ :=
        continueSplitting_sent { s with txBuffer := [] } data rfl
      rw [hr, hs]
      exact ⟨fun hz => absurd hz hc, fun ht hq => (hidle ht).resolve_right fun hne => hne hq⟩

theorem Sound.step {s : BluetoothSerial α} {i : Input α} (hi : Lossless i) (h : s.Sound) :
    (s.step i).Sound := by
  cases i with
  | write malloc buffer =>
    show (s.write malloc buffer).2.Sound
    rcases s.write_cases malloc buffer with hw | ⟨q, hc, hq, hw⟩
    · rw [hw]
      exact h
    · rw [hw]
      have hne : q.toList ≠ [] := by simp [hq]
      exact ⟨fun hz => absurd hz hc, fun _ hnil => absurd hnil hne⟩
  | receive =>
    show (if s.txTask.sending then s else s.receivePacket).Sound
    split
    · exact h
    · rcases s.receivePacket_cases with ⟨-, hr⟩ | ⟨packet, q, buffer, task, hq, hr, -, -, -, hne⟩
      · rw [hr]
        exact h
      · rw [hr]
        refine ⟨fun hz => ?_, fun ht hnil => absurd hnil (hne ht)⟩
        -- a packet has been accepted, so there is a client
        rw [(h.unused hz).1] at hq
        cases hq
  | send outcome =>
    obtain rfl : outcome = .acked := hi
    exact h.send
  | dataInd data => exact ⟨h.unused, h.settled⟩
  | read =>
    show s.read.2.Sound
    unfold read
    split
    · exact h
    · exact ⟨h.unused, h.settled⟩
  | srvOpen handle =>
    show (s.srvOpen handle).Sound
    by_cases hc : s.client = 0
    · obtain ⟨hq, -, ht⟩ := h.unused hc
      rw [srvOpen, if_pos hc]
      exact ⟨fun _ => ⟨hq, rfl, ht⟩, fun _ _ => rfl⟩
    · rw [srvOpen, if_neg hc]
      exact ⟨h.unused, h.settled⟩
  | close => exact hi.elim

/-- In a run without failures every accepted byte is written or pending, in order. -/
theorem lossless_run {is : List (Input α)} (h : ∀ i ∈ is, Lossless i) :
    writtenBytes is ++ ((machine α).run is).pending = acceptedBytes is ∧
      ((machine α).run is).Sound := by
  refine Machine.run_history (M := machine α) (f := written) (g := accepted)
    (P := fun s ws as => ws.flatten ++ s.pending = as.flatten ∧ s.Sound)
    ⟨rfl, fun _ => ⟨rfl, rfl, rfl⟩, fun _ _ => rfl⟩ ?_
  rintro s i hi ws as ⟨heq, hs⟩
  refine ⟨?_, hs.step (h i hi)⟩
  rw [List.flatten_append, List.flatten_append, List.append_assoc, ← heq, List.append_assoc]
  exact congrArg _ (s.step_pending_eq (h i hi) hs.unused)

/-! ## Progress -/

/-- A round of the task: the next packet is received, or the send it blocks in is acknowledged. -/
def rounds : Nat → List (Input α)
  | 0 => []
  | n + 1 => .receive :: .send .acked :: rounds n

/-- How many rounds the task needs at most. -/
def work (s : BluetoothSerial α) : Nat :=
  s.txQueue.toList.length + s.txQueue.toList.flatten.length + s.txTask.data.length +
    if s.txTask.sending then 1 else 0

theorem pending_of_work {s : BluetoothSerial α} (h : s.Sound) (hw : s.work = 0) :
    s.pending = [] := by
  obtain ⟨h1, h3⟩ := Nat.add_eq_zero_iff.1 hw
  obtain ⟨h1, h2⟩ := Nat.add_eq_zero_iff.1 h1
  have hq : s.txQueue.toList = [] := by
    cases hl : s.txQueue.toList with
    | nil => rfl
    | cons p ps => simp [hl] at h1
  have ht : s.txTask = .receiving := by
    cases ht : s.txTask with
    | receiving => rfl
    | flushing => simp [ht] at h3
    | splitting data => simp [ht] at h3
  simp [pending, h.settled ht hq, hq, ht]

theorem work_receivePacket {s : BluetoothSerial α} (ht : s.txTask = .receiving) :
    s.receivePacket.work ≤ s.work ∧
      (s.receivePacket.txTask = .receiving → s.receivePacket.work ≤ s.work - 1) := by
  have hs : s.work = s.txQueue.toList.length + s.txQueue.toList.flatten.length := by
    rw [work, ht]
    rfl
  rcases s.receivePacket_cases with ⟨hq, hr⟩ | ⟨packet, q, buffer, task, hq, hr, hb, ⟨k, hk⟩, -⟩
  · rw [hr, hs, hq]
    exact ⟨Nat.le_refl _, fun _ => Nat.le_refl _⟩
  · have hlen : task.data.length ≤ packet.length := by
      rw [← hk, List.append_assoc] at hb
      have := congrArg List.length (List.append_cancel_left hb)
      rw [List.length_append] at this
      omega
    rw [hr, hs, hq, work, List.length_cons, List.flatten_cons, List.length_append]
    refine ⟨?_, fun h => ?_⟩
    · dsimp only
      split <;> omega
    · rw [show task = .receiving from h, if_neg (by simp)]
      show q.toList.length + q.toList.flatten.length + 0 + 0 ≤ _
      omega

theorem work_send {s : BluetoothSerial α} (hc : s.client ≠ 0) (h : s.txTask.sending = true) :
    (s.sendReturns .acked).work ≤ s.work - 1 := by
  rcases s.sendReturns_cases .acked with ⟨ht, -⟩ | ⟨-, ⟨hz, -⟩ | ⟨-, hr, hd⟩ | ⟨-, data, ht, hr⟩⟩
  · rw [ht] at h
    cases h
  · exact absurd (hz rfl) hc
  · rw [hr]
    simp [work, h]
  · obtain ⟨buffer, task, hs, -, -, -, hle⟩ :=
      continueSplitting_sent { s with txBuffer := [] } data rfl
    have hwork : s.work =
        s.txQueue.toList.length + s.txQueue.toList.flatten.length + data.length + 1 := by
      rw [work, ht]
      rfl
    rw [hr, hs, hwork, work]
    dsimp only
    omega

theorem client_receivePacket (s : BluetoothSerial α) : s.receivePacket.client = s.client := by
  rcases s.receivePacket_cases with ⟨-, hr⟩ | ⟨packet, q, buffer, task, -, hr, -⟩
  · rw [hr]
  · rw [hr]

theorem client_sendReturns (s : BluetoothSerial α) (outcome : Outcome) :
    (s.sendReturns outcome).client = s.client := by
  rcases s.sendReturns_cases outcome with ⟨-, hr⟩ | ⟨-, ⟨-, -, hr⟩ | ⟨-, hr, -⟩ | ⟨-, data, -, hr⟩⟩
  · rw [hr]
  · rw [hr]
  · rw [hr]
  · obtain ⟨buffer, task, hs, -⟩ := continueSplitting_sent { s with txBuffer := [] } data rfl
    rw [hr, hs]

/-- A round leaves less work, if there is any. -/
theorem work_round {s : BluetoothSerial α} (hc : s.client ≠ 0) :
    ((machine α).runFrom s (rounds 1)).work ≤ s.work - 1 ∧
      ((machine α).runFrom s (rounds 1)).client = s.client := by
  have hrun : (machine α).runFrom s (rounds 1) = (s.step .receive).sendReturns .acked := rfl
  have hrec : (s.step .receive).client = s.client ∧ (s.step .receive).work ≤ s.work ∧
      ((s.step .receive).txTask = .receiving → (s.step .receive).work ≤ s.work - 1) := by
    show (if s.txTask.sending then s else s.receivePacket).client = _ ∧
      (if s.txTask.sending then s else s.receivePacket).work ≤ _ ∧
      ((if s.txTask.sending then s else s.receivePacket).txTask = _ →
        (if s.txTask.sending then s else s.receivePacket).work ≤ _)
    cases ht : s.txTask with
    | receiving => exact ⟨s.client_receivePacket, work_receivePacket ht⟩
    | flushing => exact ⟨rfl, Nat.le_refl _, fun h => absurd (ht.symm.trans h) nofun⟩
    | splitting data => exact ⟨rfl, Nat.le_refl _, fun h => absurd (ht.symm.trans h) nofun⟩
  rw [hrun, client_sendReturns]
  generalize s.step .receive = t at hrec ⊢
  obtain ⟨hct, hle, hlt⟩ := hrec
  refine ⟨?_, hct⟩
  cases ht : t.txTask with
  | receiving =>
    have hr : t.sendReturns .acked = t := by rw [sendReturns, ht]
    rw [hr]
    exact hlt ht
  | flushing =>
    have := work_send (hct ▸ hc) (show t.txTask.sending = true by rw [ht]; rfl)
    omega
  | splitting data =>
    have := work_send (hct ▸ hc) (show t.txTask.sending = true by rw [ht]; rfl)
    omega

theorem work_rounds {s : BluetoothSerial α} (hc : s.client ≠ 0) (n : Nat) :
    ((machine α).runFrom s (rounds n)).work ≤ s.work - n := by
  induction n generalizing s with
  | zero => exact Nat.le_refl _
  | succ n ih =>
    obtain ⟨hw, hcl⟩ := work_round (s := s) hc
    have := ih (s := (machine α).runFrom s (rounds 1)) (hcl ▸ hc)
    show ((machine α).runFrom ((machine α).runFrom s (rounds 1)) (rounds n)).work ≤ _
    omega

/-- An idle task stays where it is. -/
theorem rounds_idle {s : BluetoothSerial α} (hq : s.txQueue.toList = [])
    (ht : s.txTask = .receiving) (n : Nat) : (machine α).runFrom s (rounds n) = s := by
  induction n with
  | zero => rfl
  | succ n ih =>
    have hrec : s.step .receive = s := by
      show (if s.txTask.sending then s else s.receivePacket) = s
      rcases s.receivePacket_cases with ⟨-, hr⟩ | ⟨packet, q, buffer, task, hcons, -⟩
      · rw [hr, ite_self]
      · rw [hq] at hcons
        cases hcons
    have hsend : s.sendReturns .acked = s := by rw [sendReturns, ht]
    show (machine α).runFrom ((s.step .receive).sendReturns .acked) (rounds n) = s
    rw [hrec, hsend, ih]

theorem rounds_lossless (n : Nat) : ∀ i ∈ (rounds n : List (Input α)), Lossless i := by
  induction n with
  | zero => nofun
  | succ n ih =>
    intro i hi
    rcases List.mem_cons.1 hi with rfl | hi
    · trivial
    · rcases List.mem_cons.1 hi with rfl | hi
      · rfl
      · exact ih i hi

theorem accepted_rounds (s : BluetoothSerial α) (n : Nat) :
    (machine α).labelsFrom accepted s (rounds n) = [] := by
  induction n generalizing s with
  | zero => rfl
  | succ n ih => exact ih _

/-- **Without failures nothing is lost.** In a run without disconnections whose sends are all
acknowledged, the accepted bytes are those written followed by those pending; nothing is pending
while the task waits with an empty queue; and enough further rounds of the task write everything. -/
theorem transmit_all {is : List (Input α)} (h : ∀ i ∈ is, Lossless i) :
    let s := (machine α).run is
    writtenBytes is ++ s.pending = acceptedBytes is ∧
    (s.txTask = .receiving → s.txQueue.toList = [] → s.pending = []) ∧
    ∀ n, s.work ≤ n → writtenBytes (is ++ rounds n) = acceptedBytes is := by
  intro s
  obtain ⟨heq, hs⟩ := lossless_run h
  refine ⟨heq, fun ht hq => ?_, fun n hn => ?_⟩
  · rw [pending, hs.settled ht hq, hq, ht]
    rfl
  have hall : ∀ i ∈ is ++ rounds n, Lossless i := by
    intro i hi
    rcases List.mem_append.1 hi with hi | hi
    · exact h i hi
    · exact rounds_lossless n i hi
  obtain ⟨heq', hs'⟩ := lossless_run hall
  have hacc : acceptedBytes (is ++ rounds n) = acceptedBytes is := by
    rw [acceptedBytes, Machine.labels, Machine.labelsFrom_append, accepted_rounds, List.append_nil]
    rfl
  have hidle : ((machine α).run (is ++ rounds n)).pending = [] := by
    rw [Machine.run_append] at hs' ⊢
    by_cases hc : s.client = 0
    · obtain ⟨hq, hb, ht⟩ := hs.unused hc
      rw [rounds_idle hq ht, pending, hb, hq, ht]
      rfl
    · have hw : ((machine α).runFrom s (rounds n)).work ≤ s.work - n := work_rounds hc n
      exact pending_of_work hs' (Nat.eq_zero_of_le_zero (Nat.le_trans hw (by omega)))
  rw [hidle, List.append_nil, hacc] at heq'
  exact heq'

def acknowledgedRun : List (Input Nat) :=
  [.srvOpen 1, .write true [1, 2], .receive, .write true [3], .send .acked]

theorem transmit_all_acknowledged :
    writtenBytes (acknowledgedRun ++ rounds 3) = acceptedBytes acknowledgedRun ∧
    acceptedBytes acknowledgedRun = [1, 2, 3] := by
  have hall : ∀ i ∈ acknowledgedRun, Lossless i := by
    simp [acknowledgedRun, Lossless]
  obtain ⟨-, -, h⟩ := transmit_all hall
  exact ⟨h 3 (by decide), by decide⟩

end BuptCar.BluetoothSerial
