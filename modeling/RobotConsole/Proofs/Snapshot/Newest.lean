import RobotConsole.Proofs.Snapshot.Conservation

/-!
A consumer never goes back in time, and never misses the end.  What was handed out, what a read in
progress holds and what waits in the buffer stand in the order of their sending.  Only a publisher
that still has a value to send takes one out of a full buffer, so once no publisher is at work the
value sent last is still there.
-/

namespace RobotConsole

open scoped List

variable {α : Type}

namespace SnapshotBuffer

theorem trySend_of_lt {b : SnapshotBuffer α} (h : b.queue.length < b.capacity) (value : α) :
    b.trySend value = some { b with queue := b.queue ++ [value] } := by
  rw [trySend, if_pos h]

theorem trySend_of_le {b : SnapshotBuffer α} (h : b.capacity ≤ b.queue.length) (value : α) :
    b.trySend value = none := by
  rw [trySend, if_neg (Nat.not_lt.2 h)]

theorem publishWithin_of_lt {b : SnapshotBuffer α} (h : b.queue.length < b.capacity) (value : α)
    (evictions : Nat) :
    b.publishWithin value evictions = { b with queue := b.queue ++ [value] } := by
  cases evictions <;> simp [publishWithin, trySend_of_lt h]

theorem tryReceive_eq (b : SnapshotBuffer α) :
    b.tryReceive = (b.queue.head?, { b with queue := b.queue.tail }) := by
  obtain ⟨queue, capacity, hcapacity⟩ := b
  cases queue <;> rfl

/-- In a full buffer the oldest value makes room for the new one. -/
theorem publish_of_full {b : SnapshotBuffer α} (h : b.queue.length = b.capacity) (value : α) :
    b.publish value = { b with queue := b.queue.tail ++ [value] } := by
  obtain ⟨queue, capacity, hcapacity⟩ := b
  cases queue with
  | nil => exact absurd h (Nat.ne_of_lt hcapacity)
  | cons oldest rest =>
    rw [publish, List.length_cons, publishWithin, trySend_of_le (Nat.le_of_eq h.symm)]
    exact publishWithin_of_lt (Nat.lt_of_succ_le (Nat.le_of_eq h)) value rest.length

theorem drain_eq_getLast? (held : Option α) (queue : List α) :
    drain held queue = (held.toList ++ queue).getLast? := by
  induction queue generalizing held with
  | nil => cases held <;> rfl
  | cons value queue ih =>
    rw [drain, ih]
    simp [List.getLast?_append, List.getLast?_cons]

end SnapshotBuffer

namespace Exchange

variable {capacity : Nat} {e : Exchange α}

/-- What was handed out, is held by the read in progress or waits in the buffer, oldest first. -/
def line (e : Exchange α) : List α := e.handedOut ++ e.consumer.held.toList ++ e.buffer.queue

/-- No publish call is in progress. -/
def Settled (e : Exchange α) : Prop := ∀ p ∈ e.publishers, p = .idle

structure Keeps (capacity : Nat) (e : Exchange α) : Prop where
  capacity_eq : e.buffer.capacity = max capacity 1
  room : e.buffer.queue.length ≤ e.buffer.capacity
  inOrder : e.line <+ e.sent
  newest : e.Settled → e.line.getLast? = e.sent.getLast?

theorem keeps_new (capacity publishers : Nat) :
    Keeps capacity (new capacity publishers : Exchange α) :=
  ⟨rfl, Nat.zero_le _, List.Sublist.refl _, fun _ => rfl⟩

/-- A turn that sends nothing may take values out, but the last one only while some publisher is at
work afterwards. -/
theorem Keeps.of_sent_eq {e' : Exchange α} (h : Keeps capacity e) (hsent : e'.sent = e.sent)
    (hcapacity : e'.buffer.capacity = e.buffer.capacity)
    (hroom : e'.buffer.queue.length ≤ e.buffer.queue.length) (hline : e'.line <+ e.line)
    (hnewest : e'.Settled → e.Settled ∧ e'.line.getLast? = e.line.getLast?) :
    Keeps capacity e' where
  capacity_eq := hcapacity.trans h.capacity_eq
  room := Nat.le_trans hroom (hcapacity ▸ h.room)
  inOrder := hsent ▸ hline.trans h.inOrder
  newest hsettled := by
    obtain ⟨hbefore, hlast⟩ := hnewest hsettled
    rw [hlast, hsent, h.newest hbefore]

theorem not_settled_set {publishers : List (Publisher α)} {i : Nat} {p p' : Publisher α}
    (h : publishers[i]? = some p) (hp' : p' ≠ .idle) :
    ¬ ∀ q ∈ publishers.set i p', q = .idle := fun hall =>
  hp' (hall p' (List.mem_set (List.getElem?_eq_some_iff.1 h).1 p'))

theorem turn_advance_idle {i : Nat} (h : e.publishers[i]? = some .idle) :
    e.turn (.advance i) = e := by
  obtain ⟨hi, hp⟩ := List.getElem?_eq_some_iff.1 h
  have hset : e.publishers.set i .idle = e.publishers := hp ▸ List.set_getElem_self hi
  simp [turn_advance h, Publisher.step, sends, hset]

theorem turn_advance_send {i : Nat} {value : α} (hp : e.publishers[i]? = some (.sending value))
    (hroom : e.buffer.queue.length < e.buffer.capacity) :
    e.turn (.advance i) =
      { e with
        buffer := { e.buffer with queue := e.buffer.queue ++ [value] }
        publishers := e.publishers.set i .idle
        sent := e.sent ++ [value] } := by
  simp [turn_advance hp, Publisher.step, sends, SnapshotBuffer.trySend_of_lt hroom]

theorem turn_advance_full {i : Nat} {value : α} (hp : e.publishers[i]? = some (.sending value))
    (hfull : e.buffer.capacity ≤ e.buffer.queue.length) :
    e.turn (.advance i) = { e with publishers := e.publishers.set i (.evicting value) } := by
  simp [turn_advance hp, Publisher.step, sends, SnapshotBuffer.trySend_of_le hfull]

theorem turn_advance_evict {i : Nat} {value : α} (hp : e.publishers[i]? = some (.evicting value)) :
    e.turn (.advance i) =
      { e with
        buffer := { e.buffer with queue := e.buffer.queue.tail }
        publishers := e.publishers.set i (.sending value) } := by
  simp [turn_advance hp, Publisher.step, sends, SnapshotBuffer.tryReceive_eq]

theorem keeps_publish (h : Keeps capacity e) (i : Nat) (value : α) :
    Keeps capacity (e.turn (.publish i value)) := by
  by_cases hidle : e.publishers[i]? = some .idle
  · rw [turn_publish_idle hidle]
    refine h.of_sent_eq rfl rfl (Nat.le_refl _) (List.Sublist.refl _) fun hsettled => ?_
    exact absurd hsettled (not_settled_set hidle (by simp))
  · rw [turn_publish_of_ne hidle]
    exact h

/-- The value that is sent stands last, behind everything that waits. -/
theorem keeps_send {i : Nat} {value : α} (h : Keeps capacity e)
    (hp : e.publishers[i]? = some (.sending value))
    (hroom : e.buffer.queue.length < e.buffer.capacity) :
    Keeps capacity (e.turn (.advance i)) := by
  have hline : (e.turn (.advance i)).line = e.line ++ [value] := by
    simp [turn_advance_send hp hroom, line]
  have hsent : (e.turn (.advance i)).sent = e.sent ++ [value] := by
    rw [turn_advance_send hp hroom]
  refine ⟨?_, ?_, ?_, fun _ => ?_⟩
  · rw [turn_advance_send hp hroom]
    exact h.capacity_eq
  · rw [turn_advance_send hp hroom, List.length_append]
    exact hroom
  · rw [hline, hsent]
    exact h.inOrder.append_right [value]
  · rw [hline, hsent, List.getLast?_concat, List.getLast?_concat]

theorem keeps_advance (h : Keeps capacity e) (i : Nat) : Keeps capacity (e.turn (.advance i)) := by
  cases hp : e.publishers[i]? with
  | none => exact (turn_advance_none hp).symm ▸ h
  | some p =>
    cases p with
    | idle => exact (turn_advance_idle hp).symm ▸ h
    | sending value =>
      by_cases hroom : e.buffer.queue.length < e.buffer.capacity
      · exact keeps_send h hp hroom
      · rw [turn_advance_full hp (Nat.not_lt.1 hroom)]
        refine h.of_sent_eq rfl rfl (Nat.le_refl _) (List.Sublist.refl _) fun hsettled => ?_
        exact absurd hsettled (not_settled_set hp (by simp))
    | evicting value =>
      rw [turn_advance_evict hp]
      refine h.of_sent_eq rfl rfl (by simp) ?_ fun hsettled => ?_
      · exact (List.tail_sublist _).append_left _
      · exact absurd hsettled (not_settled_set hp (by simp))

theorem keeps_poll (h : Keeps capacity e) : Keeps capacity (e.turn .poll) := by
  rw [turn]
  split
  · next hidle =>
    have hline : line { e with consumer := .draining none } = e.line := by
      simp [line, hidle, Consumer.held]
    exact h.of_sent_eq rfl rfl (Nat.le_refl _) (hline ▸ List.Sublist.refl _)
      fun hsettled => ⟨hsettled, by rw [hline]⟩
  · exact h

theorem turn_receive_idle (h : e.consumer = .idle) : e.turn .receive = e := by
  obtain ⟨buffer, publishers, consumer, sent, handedOut⟩ := e
  obtain rfl : consumer = .idle := h
  simp [turn, Consumer.step]

theorem turn_receive_empty {held : Option α} (h : e.consumer = .draining held)
    (hqueue : e.buffer.queue = []) :
    e.turn .receive = { e with consumer := .idle, handedOut := e.handedOut ++ held.toList } := by
  simp [turn, h, Consumer.step, SnapshotBuffer.tryReceive, hqueue]

theorem turn_receive_next {held : Option α} {value : α} {rest : List α}
    (h : e.consumer = .draining held) (hqueue : e.buffer.queue = value :: rest) :
    e.turn .receive =
      { e with
        buffer := { e.buffer with queue := rest }
        consumer := .draining (some value) } := by
  simp [turn, h, Consumer.step, SnapshotBuffer.tryReceive, hqueue]

theorem keeps_receive (h : Keeps capacity e) : Keeps capacity (e.turn .receive) := by
  cases hconsumer : e.consumer with
  | idle => exact (turn_receive_idle hconsumer).symm ▸ h
  | draining held =>
    cases hqueue : e.buffer.queue with
    | nil =>
      have hline : (e.turn .receive).line = e.line := by
        simp [turn_receive_empty hconsumer hqueue, line, hconsumer, Consumer.held, hqueue]
      rw [turn_receive_empty hconsumer hqueue] at hline ⊢
      exact h.of_sent_eq rfl rfl (Nat.le_refl _) (hline ▸ List.Sublist.refl _)
        fun hsettled => ⟨hsettled, by rw [hline]⟩
    | cons value rest =>
      -- the value held before is skipped; a newer one takes its place
      have hbefore : e.line = e.handedOut ++ held.toList ++ value :: rest := by
        rw [line, hconsumer, hqueue, Consumer.held]
      have hafter : (e.turn .receive).line = e.handedOut ++ value :: rest := by
        simp [turn_receive_next hconsumer hqueue, line, Consumer.held]
      rw [turn_receive_next hconsumer hqueue] at hafter ⊢
      refine h.of_sent_eq rfl rfl (by simp [hqueue]) ?_ fun hsettled => ⟨hsettled, ?_⟩
      · rw [hafter, hbefore]
        exact (List.sublist_append_left _ _).append_right _
      · rw [hafter, hbefore, List.getLast?_append_of_ne_nil _ (by simp),
          List.getLast?_append_of_ne_nil _ (by simp)]

theorem keeps_turn (h : Keeps capacity e) (t : Turn α) : Keeps capacity (e.turn t) := by
  cases t with
  | publish i value => exact keeps_publish h i value
  | advance i => exact keeps_advance h i
  | poll => exact keeps_poll h
  | receive => exact keeps_receive h

theorem keeps_run (capacity publishers : Nat) (turns : List (Turn α)) :
    Keeps capacity ((new capacity publishers).run turns) := by
  induction turns using List.reverseRecOn with
  | nil => exact keeps_new capacity publishers
  | append_singleton turns t ih =>
    rw [run_append]
    exact keeps_turn ih t

/-- The consumer reads to the end of a read while nothing is published. -/
def finished (e : Exchange α) : Exchange α :=
  e.run (.poll :: List.replicate (e.buffer.pending + 1) .receive)

theorem run_receives {held : Option α} (h : e.consumer = .draining held) :
    e.run (List.replicate (e.buffer.pending + 1) .receive) =
      { e with
        buffer := { e.buffer with queue := [] }
        consumer := .idle
        handedOut := e.handedOut ++ (SnapshotBuffer.drain held e.buffer.queue).toList } := by
  obtain ⟨⟨queue, capacity, hcapacity⟩, publishers, consumer, sent, handedOut⟩ := e
  induction queue generalizing consumer held with
  | nil => exact turn_receive_empty h rfl
  | cons value rest ih =>
    rw [SnapshotBuffer.pending, List.length_cons, List.replicate_succ, run, List.foldl_cons,
      turn_receive_next h rfl, ← run]
    exact ih (.draining (some value)) rfl

/-- A read that goes on undisturbed hands out the last value that is there. -/
theorem finished_eq (e : Exchange α) :
    e.finished =
      { e with
        buffer := { e.buffer with queue := [] }
        consumer := .idle
        handedOut :=
          e.handedOut ++ (e.consumer.held.toList ++ e.buffer.queue).getLast?.toList } := by
  rw [finished, run, List.foldl_cons, ← run, ← SnapshotBuffer.drain_eq_getLast?]
  obtain ⟨buffer, publishers, consumer, sent, handedOut⟩ := e
  cases consumer with
  | idle => exact run_receives rfl
  | draining held => exact run_receives rfl

/-- A read that no other thread disturbs. -/
theorem finished_of_idle (h : e.consumer = .idle) :
    e.finished =
      { e with
        buffer := e.buffer.latest.2
        handedOut := e.handedOut ++ e.buffer.latest.1.toList } := by
  rw [finished_eq, SnapshotBuffer.latest, SnapshotBuffer.drain_eq_getLast?, h]
  rfl

/-- It takes three steps at most to send a value that no other thread disturbs. -/
theorem run_advance {i : Nat} {value : α} (hp : e.publishers[i]? = some (.sending value))
    (hroom : e.buffer.queue.length ≤ e.buffer.capacity) :
    e.run (List.replicate 3 (.advance i)) =
      { e with
        buffer := e.buffer.publish value
        publishers := e.publishers.set i .idle
        sent := e.sent ++ [value] } := by
  have hset : ∀ p : Publisher α, (e.publishers.set i p)[i]? = some p := fun p =>
    List.getElem?_set_self (List.getElem?_eq_some_iff.1 hp).1
  change ((e.turn (.advance i)).turn (.advance i)).turn (.advance i) = _
  rcases Nat.lt_or_eq_of_le hroom with hlt | hfull
  · rw [turn_advance_send hp hlt, turn_advance_idle, turn_advance_idle, SnapshotBuffer.publish,
      SnapshotBuffer.publishWithin_of_lt hlt]
    · exact hset _
    · rw [turn_advance_idle] <;> exact hset _
  · have htail : e.buffer.queue.tail.length < e.buffer.capacity := by
      have := e.buffer.capacity_pos
      rw [List.length_tail]
      omega
    have hevict : (e.turn (.advance i)).turn (.advance i) =
        { e with
          buffer := { e.buffer with queue := e.buffer.queue.tail }
          publishers := e.publishers.set i (.sending value) } := by
      rw [turn_advance_full hp (Nat.le_of_eq hfull.symm)]
      exact (turn_advance_evict (hset _)).trans (by rw [List.set_set])
    rw [hevict, SnapshotBuffer.publish_of_full hfull]
    exact (turn_advance_send (hset _) htail).trans (by rw [List.set_set])

/-- A publish call that no other thread disturbs. -/
theorem run_publish {i : Nat} (h : e.publishers[i]? = some .idle)
    (hroom : e.buffer.queue.length ≤ e.buffer.capacity) (value : α) :
    e.run (.publish i value :: List.replicate 3 (.advance i)) =
      { e with buffer := e.buffer.publish value, sent := e.sent ++ [value] } := by
  obtain ⟨hi, hp⟩ := List.getElem?_eq_some_iff.1 h
  have hidle : e.publishers.set i .idle = e.publishers := hp ▸ List.set_getElem_self hi
  have hsending := run_advance (e := { e with publishers := e.publishers.set i (.sending value) })
    (List.getElem?_set_self hi) hroom
  rw [List.set_set, hidle] at hsending
  rw [run, List.foldl_cons, turn_publish_idle h]
  exact hsending

/-- The value was handed out last, or it is held or waits behind all others; then a read in progress
or the next one ends with it. -/
def Delivers (e : Exchange α) (value : α) : Prop :=
  e.handedOut.getLast? = some value ∨
    (e.consumer = .draining (some value) ∨ e.buffer.queue.getLast? = some value) ∧
      e.finished.handedOut = e.handedOut ++ [value] ∧ e.finished.consumer = .idle

/-- How an exchange passes values on, none of which is published twice. -/
structure HandsOver (capacity : Nat) (e : Exchange α) : Prop where
  room : e.buffer.queue.length ≤ max capacity 1
  sent_nodup : e.sent.Nodup
  handedOut_nodup : e.handedOut.Nodup
  inOrder : e.handedOut <+ e.sent
  newest : e.Settled → ∀ value, e.sent.getLast? = some value → e.Delivers value

theorem Keeps.delivers (h : Keeps capacity e) (hsettled : e.Settled) {value : α}
    (hsent : e.sent.getLast? = some value) : e.Delivers value := by
  have hlast := (h.newest hsettled).trans hsent
  rw [line, List.append_assoc, List.getLast?_append, Option.or_eq_some_iff] at hlast
  obtain hlast | ⟨-, hlast⟩ := hlast
  · refine Or.inr ⟨?_, ?_, ?_⟩
    · rw [List.getLast?_append, Option.or_eq_some_iff] at hlast
      obtain hlast | ⟨-, hlast⟩ := hlast
      · exact Or.inr hlast
      · left
        cases hconsumer : e.consumer with
        | idle => simp [hconsumer, Consumer.held] at hlast
        | draining held =>
          cases held with
          | none => simp [hconsumer, Consumer.held] at hlast
          | some last => simpa [hconsumer, Consumer.held] using hlast
    · rw [finished_eq, hlast]
      rfl
    · rw [finished_eq]
  · exact Or.inl hlast

/-- Whatever turns the threads take, the buffer stays within its bound, no publish call's value is
handed out twice, the values come in the order of their sending, and the one sent last is not lost.
The values are marked by their publish calls; but for the marks the run is that of the turns. -/
theorem handsOver_run (capacity publishers : Nat) (turns : List (Turn α)) :
    ((new capacity publishers).run (numbered turns)).map Prod.snd =
        (new capacity publishers).run turns ∧
      HandsOver capacity ((new capacity publishers).run (numbered turns)) := by
  have hkeeps := keeps_run capacity publishers (numbered turns)
  have hsent := sent_numbered_nodup capacity publishers turns
  have hinOrder : ((new capacity publishers).run (numbered turns)).handedOut <+
      ((new capacity publishers).run (numbered turns)).sent :=
    ((List.sublist_append_left _ _).trans (List.sublist_append_left _ _)).trans hkeeps.inOrder
  refine ⟨?_, ?_, hsent, hsent.sublist hinOrder, hinOrder,
    fun hsettled _ hlast => hkeeps.delivers hsettled hlast⟩
  · have hnew : (new capacity publishers : Exchange (Nat × α)).map Prod.snd =
        new capacity publishers := by
      simp [map, new, idleOn, SnapshotBuffer.map, SnapshotBuffer.empty, Publisher.map, Consumer.map]
    rw [← run_map, hnew, numbered_map_snd]
  · exact hkeeps.capacity_eq ▸ hkeeps.room

/-- The second publisher finds the buffer full and takes the first one's value out. -/
example : ((new 1 2).run [.publish 0 7, .publish 1 8, .advance 0, .advance 1, .advance 1,
    .advance 1, .poll, .receive, .receive]).handedOut = [8] := rfl

end Exchange
end RobotConsole
