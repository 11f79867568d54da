import RobotConsole.Proofs.Snapshot.Calls
import RobotConsole.Proofs.Snapshot.Missed

/-!
Calls one after another, on a buffer that memory has room for.  A call takes atomic steps until its thread is idle again, and the next call
begins only then.  Between calls the buffer holds the last of the values published since the last read,
as many as it has room for, whichever publisher they came from.  A publish call makes room at most once,
and a read hands out the value published last and leaves nothing.
-/

namespace RobotConsole.Exchange

variable {α : Type} {capacity publishers : Nat} {e e' : Exchange α}

inductive Call (publishers : Nat) (α : Type) where
  | publish (publisher : Fin publishers) (value : α)
  | read

namespace Call

def first : Call publishers α → Turn α
  | .publish i value => .publish i value
  | .read => .poll

def next : Call publishers α → Turn α
  | .publish i _ => .advance i
  | .read => .receive

def IsOver (e : Exchange α) : Call publishers α → Prop
  | .publish i _ => e.publishers[i.val]? = some .idle
  | .read => e.consumer = .idle

/-- The values published since the last read, which were `published` at first. -/
def unread (published : List α) : List (Call publishers α) → List α
  | [] => published
  | .publish _ value :: calls => unread (published ++ [value]) calls
  | .read :: calls => unread [] calls

/-- What each call has to hand out: a publish call nothing, and a read the value published last since
the read before, if there is one. -/
def due (published : List α) : List (Call publishers α) → List (List (Option α))
  | [] => []
  | .publish _ value :: calls => [] :: due (published ++ [value]) calls
  | .read :: calls => [published.getLast?] :: due [] calls

theorem unread_read (published : List α) (calls : List (Call publishers α)) :
    unread published (calls ++ [.read]) = [] := by
  induction calls generalizing published with
  | nil => rfl
  | cons c calls ih =>
    cases c with
    | publish _ value => exact ih (published ++ [value])
    | read => exact ih []

end Call

/-- What a read that ends with a turn hands out. -/
def answers (e : Exchange α) : Turn α → List (Option α)
  | .receive => (e.consumer.step e.buffer).2.2.toList
  | _ => []

def answered (e : Exchange α) : List (Turn α) → List (Option α)
  | [] => []
  | t :: turns => e.answers t ++ (e.turn t).answered turns

/-- The turns that a call takes until it is over, with those of no other thread in between. -/
inductive GoesOn (c : Call publishers α) : Exchange α → List (Turn α) → Prop where
  | ended {e : Exchange α} : c.IsOver e → GoesOn c e []
  | step {e : Exchange α} {turns : List (Turn α)} :
      ¬ c.IsOver e → GoesOn c (e.turn c.next) turns → GoesOn c e (c.next :: turns)

/-- The values that a call takes out to make room, and what it hands out. -/
structure Outcome (α : Type) where
  evicted : List α
  answered : List (Option α)

/-- Calls that each begin when the one before is over, with their outcomes. -/
inductive InTurn : Exchange α → List (Call publishers α) → List (Outcome α) → Exchange α → Prop where
  | done {e : Exchange α} : InTurn e [] [] e
  | call {e e' : Exchange α} {c : Call publishers α} {calls : List (Call publishers α)}
      {turns : List (Turn α)} {outcomes : List (Outcome α)} :
      GoesOn c (e.turn c.first) turns → InTurn (e.run (c.first :: turns)) calls outcomes e' →
      InTurn e (c :: calls)
        (⟨e.evicted (c.first :: turns), e.answered (c.first :: turns)⟩ :: outcomes) e'

theorem GoesOn.unique {c : Call publishers α} {turns turns' : List (Turn α)}
    (h : GoesOn c e turns) (h' : GoesOn c e turns') : turns = turns' := by
  induction h generalizing turns' with
  | ended hover =>
    cases h' with
    | ended => rfl
    | step hnot => exact absurd hover hnot
  | step hnot _ ih =>
    cases h' with
    | ended hover => exact absurd hover hnot
    | step _ hrest => rw [ih hrest]

theorem InTurn.unique {calls : List (Call publishers α)} {outcomes outcomes' : List (Outcome α)}
    {e₁ e₂ : Exchange α} (h : InTurn e calls outcomes e₁) (h' : InTurn e calls outcomes' e₂) :
    outcomes = outcomes' ∧ e₁ = e₂ := by
  induction h generalizing outcomes' with
  | done =>
    cases h'
    exact ⟨rfl, rfl⟩
  | call hturns _ ih =>
    cases h' with
    | call hturns' hrest =>
      obtain rfl := hturns.unique hturns'
      obtain ⟨rfl, rfl⟩ := ih hrest
      exact ⟨rfl, rfl⟩

/-- No call is in progress, and of the values published since the last read the last ones wait. -/
structure Rests (capacity publishers : Nat) (published : List α) (e : Exchange α) : Prop where
  settled : e.publishers = List.replicate publishers .idle
  noRead : e.consumer = .idle
  bound : e.buffer.capacity = max capacity 1
  queue : e.buffer.queue = published.rtake (max capacity 1)

theorem new?_eq_some_iff {place : Nat} :
    new? capacity place publishers = some e ↔
      max capacity 1 * place ≤ Memory.limit ∧ new capacity publishers = e := by
  simp [new?, new, Option.map_eq_some_iff, SnapshotBuffer.new?_eq_some_iff]

theorem isSome_new?_iff {place : Nat} :
    (new? capacity place publishers : Option (Exchange α)).isSome ↔
      max capacity 1 * place ≤ Memory.limit := by
  rw [new?, Option.isSome_map, SnapshotBuffer.isSome_new?_iff]

theorem rests_new (capacity publishers : Nat) :
    Rests capacity publishers [] (new capacity publishers : Exchange α) :=
  ⟨rfl, rfl, rfl, (List.rtake_nil _).symm⟩

section Steps

variable {published : List α}

theorem Rests.room (h : Rests capacity publishers published e) :
    e.buffer.queue.length ≤ e.buffer.capacity := by
  rw [h.queue, h.bound, length_rtake]
  exact Nat.min_le_left _ _

theorem Rests.idle (h : Rests capacity publishers published e) (i : Fin publishers) :
    e.publishers[i.val]? = some .idle := by
  rw [h.settled, List.getElem?_replicate, if_pos i.isLt]

/-- The value waits behind those that have room beside it. -/
theorem Rests.publish (h : Rests capacity publishers published e) (value : α) :
    Rests capacity publishers (published ++ [value])
      { e with buffer := e.buffer.publish value, sent := e.sent ++ [value] } where
  settled := h.settled
  noRead := h.noRead
  bound := by rw [SnapshotBuffer.publish_eq h.room, h.bound]
  queue := by
    have hqueue : (e.buffer.publish value).queue =
        (e.buffer.queue ++ [value]).rtake e.buffer.capacity := by
      rw [SnapshotBuffer.publish_eq h.room]
    rw [hqueue, h.queue, h.bound, rtake_append_rtake]

/-- Nothing waits after a read. -/
theorem Rests.read (h : Rests capacity publishers published e) :
    Rests capacity publishers []
      { e with
        buffer := e.buffer.latest.2
        handedOut := e.handedOut ++ e.buffer.latest.1.toList } where
  settled := h.settled
  noRead := h.noRead
  bound := h.bound
  queue := (List.rtake_nil _).symm

/-- A publisher that has a value to send is at work. -/
theorem not_isOver_publish {i : Fin publishers} {value : α} {p : Publisher α}
    (h : e.publishers[i.val]? = some p) (hp : p ≠ .idle) :
    ¬ (Call.publish i value).IsOver e := fun hover =>
  hp (Option.some.inj (h.symm.trans hover))

theorem not_isOver_read {held : Option α} (h : e.consumer = .draining held) :
    ¬ (Call.read : Call publishers α).IsOver e := fun hover => by
  cases h.symm.trans hover

theorem idle_of_send {i : Nat} {value : α} (hp : e.publishers[i]? = some (.sending value))
    (hroom : e.buffer.queue.length < e.buffer.capacity) :
    (e.turn (.advance i)).publishers[i]? = some .idle := by
  rw [turn_advance_send hp hroom]
  exact List.getElem?_set_self (List.getElem?_eq_some_iff.1 hp).1

/-- Where there is room, a publisher that has a value to send needs one step, and makes no room. -/
theorem goesOn_send {i : Fin publishers} {value : α} (hp : e.publishers[i.val]? = some (.sending value))
    (hroom : e.buffer.queue.length < e.buffer.capacity) :
    GoesOn (.publish i value : Call publishers α) e [.advance i] ∧
      e.evicted [.advance i] = [] := by
  refine ⟨.step (not_isOver_publish hp (by simp)) (.ended (idle_of_send hp hroom)), ?_⟩
  rw [evicted, evicted, evicts_advance hp (by simp), List.append_nil]

/-- Where there is none, it needs three steps, and the second one makes room. -/
theorem goesOn_evict {i : Fin publishers} {value : α} (hp : e.publishers[i.val]? = some (.sending value))
    (hfull : e.buffer.queue.length = e.buffer.capacity) :
    GoesOn (.publish i value : Call publishers α) e (List.replicate 3 (.advance i)) ∧
      (e.evicted (List.replicate 3 (.advance i))).length ≤ 1 := by
  have hset : ∀ p : Publisher α, (e.publishers.set i p)[i.val]? = some p := fun p =>
    List.getElem?_set_self (List.getElem?_eq_some_iff.1 hp).1
  have hevicting : (e.turn (.advance i)).publishers[i.val]? = some (.evicting value) := by
    rw [turn_advance_full hp (Nat.le_of_eq hfull.symm)]
    exact hset _
  obtain ⟨hsending, hroom⟩ :
      ((e.turn (.advance i)).turn (.advance i)).publishers[i.val]? = some (.sending value) ∧
        ((e.turn (.advance i)).turn (.advance i)).buffer.queue.length <
          ((e.turn (.advance i)).turn (.advance i)).buffer.capacity := by
    have htail : e.buffer.queue.tail.length < e.buffer.capacity := by
      have hpos := e.buffer.capacity_pos
      rw [List.length_tail]
      omega
    rw [turn_advance_evict hevicting, turn_advance_full hp (Nat.le_of_eq hfull.symm), List.set_set]
    exact ⟨hset _, htail⟩
  obtain ⟨hgoesOn, hevicted⟩ := goesOn_send hsending hroom
  refine ⟨.step (not_isOver_publish hp (by simp))
    (.step (not_isOver_publish hevicting (by simp)) hgoesOn), ?_⟩
  rw [List.replicate_succ, evicted, evicts_advance hp (by simp), List.replicate_succ, evicted,
    evicts_advance_evict hevicting, List.replicate_one, hevicted, List.nil_append, List.append_nil]
  exact Option.length_toList_le

/-- Steps of the consumer make no room. -/
theorem evicted_receives (e : Exchange α) (n : Nat) :
    e.evicted (List.replicate n .receive) = [] := by
  induction n generalizing e with
  | zero => rfl
  | succ n ih => rw [List.replicate_succ, evicted, ih]; rfl

/-- Steps of a publisher hand nothing out. -/
theorem answered_advances (e : Exchange α) (i n : Nat) :
    e.answered (List.replicate n (.advance i)) = [] := by
  induction n generalizing e with
  | zero => rfl
  | succ n ih => rw [List.replicate_succ, answered, ih]; rfl

/-- A read takes the values that wait one by one, and hands the last one out when it finds no more. -/
theorem goesOn_receive {held : Option α} (h : e.consumer = .draining held) :
    GoesOn (.read : Call publishers α) e (List.replicate (e.buffer.pending + 1) .receive) ∧
      e.answered (List.replicate (e.buffer.pending + 1) .receive) =
        [SnapshotBuffer.drain held e.buffer.queue] := by
  obtain ⟨⟨queue, capacity, hcapacity⟩, threads, consumer, sent, handedOut⟩ := e
  obtain rfl : consumer = .draining held := h
  induction queue generalizing held with
  | nil =>
    refine ⟨.step (not_isOver_read rfl) (.ended ?_), rfl⟩
    rw [Call.next, turn_receive_empty rfl rfl]
    rfl
  | cons value rest ih =>
    have hnext := turn_receive_next (e := ⟨⟨value :: rest, capacity, hcapacity⟩, threads,
      .draining held, sent, handedOut⟩) rfl rfl
    obtain ⟨hgoesOn, hanswered⟩ := @ih (some value)
    refine ⟨.step (not_isOver_read rfl) ?_, ?_⟩
    · rw [Call.next, hnext]
      exact hgoesOn
    · rw [SnapshotBuffer.pending, List.length_cons, List.replicate_succ, answered, hnext]
      exact hanswered

/-- A publish call ends, makes room at most once, and leaves its value behind the others. -/
theorem exists_publish (h : Rests capacity publishers published e) (i : Fin publishers) (value : α) :
    ∃ turns, GoesOn (.publish i value : Call publishers α) (e.turn (.publish i value)) turns ∧
      (e.evicted (.publish i value :: turns)).length ≤ 1 ∧
      e.answered (.publish i value :: turns) = [] ∧
      Rests capacity publishers (published ++ [value]) (e.run (.publish i value :: turns)) := by
  have hsending : (e.turn (.publish i value)).publishers[i.val]? = some (.sending value) := by
    rw [turn_publish_idle (h.idle i)]
    exact List.getElem?_set_self (List.getElem?_eq_some_iff.1 (h.idle i)).1
  have hbuffer : (e.turn (.publish i value)).buffer = e.buffer := by
    rw [turn_publish_idle (h.idle i)]
  have hevicts : ∀ turns, e.evicted (.publish i value :: turns) =
      (e.turn (.publish i value)).evicted turns := fun _ => rfl
  have hanswers : ∀ n, e.answered (.publish i value :: List.replicate n (.advance i)) = [] :=
    answered_advances (e.turn (.publish i value)) i
  have hrun := run_publish (h.idle i) h.room value
  rcases Nat.lt_or_eq_of_le h.room with hroom | hfull
  · obtain ⟨hgoesOn, hevicted⟩ := goesOn_send hsending (hbuffer ▸ hroom)
    refine ⟨[.advance i], hgoesOn, ?_, hanswers 1, ?_⟩
    · rw [hevicts, hevicted]
      exact Nat.zero_le 1
    · -- the publisher is idle after its first step, and takes no others
      have hidle := idle_of_send hsending (hbuffer ▸ hroom)
      change (((e.turn (.publish i value)).turn (.advance i)).turn (.advance i)).turn (.advance i) =
        _ at hrun
      rw [turn_advance_idle hidle, turn_advance_idle hidle] at hrun
      change Rests _ _ _ ((e.turn (.publish i value)).turn (.advance i))
      rw [hrun]
      exact h.publish value
  · obtain ⟨hgoesOn, hevicted⟩ := goesOn_evict hsending (hbuffer ▸ hfull)
    refine ⟨List.replicate 3 (.advance i), hgoesOn, ?_, hanswers 3, ?_⟩
    · rwa [hevicts]
    · rw [hrun]
      exact h.publish value

/-- A read ends, hands out the value published last, and leaves nothing. -/
theorem exists_read (h : Rests capacity publishers published e) :
    ∃ turns, GoesOn (.read : Call publishers α) (e.turn .poll) turns ∧
      e.evicted (.poll :: turns) = [] ∧ e.answered (.poll :: turns) = [published.getLast?] ∧
      Rests capacity publishers [] (e.run (.poll :: turns)) := by
  have hpoll : e.turn .poll = { e with consumer := .draining none } := by
    rw [turn, h.noRead]
  obtain ⟨hgoesOn, hanswered⟩ :=
    @goesOn_receive α publishers { e with consumer := .draining none } none rfl
  refine ⟨List.replicate (e.buffer.pending + 1) .receive, hpoll ▸ hgoesOn, ?_, ?_, ?_⟩
  · exact evicted_receives (e.turn .poll) _
  · have hlast : (published.rtake (max capacity 1)).getLast? = published.getLast? :=
      getLast?_rtake (by omega) published
    change (e.turn .poll).answered _ = _
    rw [hpoll]
    refine hanswered.trans ?_
    rw [SnapshotBuffer.drain_eq_getLast?, Option.toList_none, List.nil_append, h.queue, hlast]
  · change Rests _ _ _ e.finished
    rw [finished_of_idle h.noRead]
    exact h.read

end Steps

/-- Calls one after another all end, each makes room at most once and hands out what is due, and then
the last of the values published since the last read wait. -/
theorem exists_inTurn {published : List α} (h : Rests capacity publishers published e)
    (calls : List (Call publishers α)) :
    ∃ outcomes e', InTurn e calls outcomes e' ∧ (∀ o ∈ outcomes, o.evicted.length ≤ 1) ∧
      outcomes.map Outcome.answered = Call.due published calls ∧
      Rests capacity publishers (Call.unread published calls) e' := by
  induction calls generalizing e published with
  | nil => exact ⟨[], e, .done, by simp, rfl, h⟩
  | cons c calls ih =>
    cases c with
    | publish i value =>
      obtain ⟨turns, hgoesOn, hevicted, hanswered, hrests⟩ := exists_publish h i value
      obtain ⟨outcomes, e', hrest, hall, hdue, hend⟩ := ih hrests
      refine ⟨_, e', .call hgoesOn hrest, List.forall_mem_cons.2 ⟨hevicted, hall⟩, ?_, hend⟩
      rw [List.map_cons, hdue]
      exact congrArg (· :: _) hanswered
    | read =>
      obtain ⟨turns, hgoesOn, hevicted, hanswered, hrests⟩ := @exists_read α capacity publishers e published h
      obtain ⟨outcomes, e', hrest, hall, hdue, hend⟩ := ih hrests
      have hone : (e.evicted (.poll :: turns)).length ≤ 1 := by
        rw [hevicted]
        exact Nat.zero_le 1
      refine ⟨_, e', .call hgoesOn hrest, List.forall_mem_cons.2 ⟨hone, hall⟩, ?_, hend⟩
      rw [List.map_cons, hdue]
      exact congrArg (· :: _) hanswered

/-- A buffer can be made exactly if memory has room for its places.  Whatever calls are then made one
after another, by whichever publishers, all of them end, in one way.  Each makes room at most once.  A
publish call hands nothing out, and a read the value published last since the read before.  Of the
values published since the last read the last ones wait, in their order, as many as there is room for,
and none right after a read. -/
theorem calls_in_turn (capacity place publishers : Nat) (calls : List (Call publishers α)) :
    ((new? capacity place publishers : Option (Exchange α)).isSome ↔
      max capacity 1 * place ≤ Memory.limit) ∧
    ∀ start, new? capacity place publishers = some start →
      ∃ outcomes e, InTurn start calls outcomes e ∧
        (∀ outcomes' e', InTurn start calls outcomes' e' → outcomes' = outcomes ∧ e' = e) ∧
        (∀ o ∈ outcomes, o.evicted.length ≤ 1) ∧
        outcomes.map Outcome.answered = Call.due [] calls ∧
        e.buffer.queue = (Call.unread [] calls).rtake (max capacity 1) ∧
        e.buffer.pending = min (max capacity 1) (Call.unread [] calls).length ∧
        (calls.getLast? = some .read → e.buffer.queue = []) := by
  refine ⟨isSome_new?_iff, fun start hstart => ?_⟩
  obtain ⟨-, rfl⟩ := new?_eq_some_iff.1 hstart
  obtain ⟨outcomes, e, hcalls, hevicted, hanswered, hrests⟩ :=
    exists_inTurn (rests_new capacity publishers) calls
  refine ⟨outcomes, e, hcalls, fun outcomes' e' h' => h'.unique hcalls, hevicted, hanswered,
    hrests.queue, ?_, fun hread => ?_⟩
  · rw [SnapshotBuffer.pending, hrests.queue, length_rtake]
  · obtain ⟨before, rfl⟩ := List.getLast?_eq_some_iff.1 hread
    rw [hrests.queue, Call.unread_read, List.rtake_nil]

/-- Memory has no room for a buffer of `2 ^ 60` places of two words each. -/
theorem buffer_exceeds_memory :
    ¬ ∀ (capacity : Nat) (calls : List (Call 1 Int)), ∃ start outcomes e,
      new? capacity (SnapshotBuffer.stampOctets + 8) 1 = some start ∧
        InTurn start calls outcomes e ∧ outcomes.map Outcome.answered = Call.due [] calls := by
  intro h
  obtain ⟨start, -, -, hstart, -⟩ := h (2 ^ 60) []
  exact absurd (new?_eq_some_iff.1 hstart).1 (by decide)

end RobotConsole.Exchange
