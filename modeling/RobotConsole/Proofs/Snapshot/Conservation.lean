import Mathlib.Data.List.Induction
import Mathlib.Data.List.Perm.Basic
import Mathlib.Data.List.Perm.Subperm
import RobotConsole.Snapshot.Interleaving

/-!
What happens to published values.  A publish call sends its value once or is still about to, so if
no two calls publish the same value then no two sent values are the same.  A run does not look at
the values, so they can be told apart by the calls that published them.
-/

namespace RobotConsole

open scoped List

variable {α β : Type}

namespace SnapshotBuffer

def map (f : α → β) (b : SnapshotBuffer α) : SnapshotBuffer β :=
  ⟨b.queue.map f, b.capacity, b.capacity_pos⟩

theorem trySend_map (f : α → β) (b : SnapshotBuffer α) (v : α) :
    (b.map f).trySend (f v) = (b.trySend v).map (map f) := by
  rw [trySend, trySend]
  by_cases hroom : b.queue.length < b.capacity
  · simp [map, hroom]
  · simp [map, hroom]

theorem tryReceive_map (f : α → β) (b : SnapshotBuffer α) :
    (b.map f).tryReceive = (b.tryReceive.1.map f, b.tryReceive.2.map f) := by
  obtain ⟨queue, capacity, hcapacity⟩ := b
  cases queue <;> rfl

end SnapshotBuffer

namespace Publisher

def map (f : α → β) : Publisher α → Publisher β
  | .idle => .idle
  | .sending value => .sending (f value)
  | .evicting value => .evicting (f value)

theorem step_map (f : α → β) (b : SnapshotBuffer α) (p : Publisher α) :
    (p.map f).step (b.map f) = ((p.step b).1.map f, (p.step b).2.map f) := by
  cases p with
  | idle => rfl
  | sending value =>
    simp only [map, step, SnapshotBuffer.trySend_map]
    cases b.trySend value <;> rfl
  | evicting value => simp only [map, step, SnapshotBuffer.tryReceive_map]

def value? : Publisher α → Option α
  | .idle => none
  | .sending value => some value
  | .evicting value => some value

end Publisher

namespace Consumer

def map (f : α → β) : Consumer α → Consumer β
  | .idle => .idle
  | .draining held => .draining (held.map f)

theorem step_map (f : α → β) (b : SnapshotBuffer α) (c : Consumer α) :
    (c.map f).step (b.map f) =
      ((c.step b).1.map f, (c.step b).2.1.map f, (c.step b).2.2.map (Option.map f)) := by
  cases c with
  | idle => rfl
  | draining held =>
    obtain ⟨queue, capacity, hcapacity⟩ := b
    cases queue <;> rfl

def held : Consumer α → Option α
  | .idle => none
  | .draining held => held

end Consumer

namespace Exchange

def Turn.map (f : α → β) : Turn α → Turn β
  | .publish i value => .publish i (f value)
  | .advance i => .advance i
  | .poll => .poll
  | .receive => .receive

def map (f : α → β) (e : Exchange α) : Exchange β :=
  ⟨e.buffer.map f, e.publishers.map (Publisher.map f), e.consumer.map f, e.sent.map f,
    e.handedOut.map f⟩

theorem sends_map (f : α → β) (b : SnapshotBuffer α) (p : Publisher α) :
    sends (b.map f) (p.map f) = (sends b p).map f := by
  cases p with
  | idle => rfl
  | sending value =>
    simp only [sends, Publisher.map, SnapshotBuffer.trySend_map, Option.isSome_map]
    split <;> rfl
  | evicting value => rfl

/-- A turn does not look at the values. -/
theorem turn_map (f : α → β) (e : Exchange α) (t : Turn α) :
    (e.map f).turn (t.map f) = (e.turn t).map f := by
  cases t with
  | publish i value =>
    simp only [turn, Turn.map, map, List.getElem?_map]
    cases e.publishers[i]? with
    | none => rfl
    | some p =>
      cases p with
      | idle => simp [Publisher.map, List.map_set]
      | sending => rfl
      | evicting => rfl
  | advance i =>
    simp only [turn, Turn.map, map, List.getElem?_map]
    cases e.publishers[i]? with
    | none => rfl
    | some p => simp [Publisher.step_map, sends_map, List.map_set]
  | poll =>
    obtain ⟨buffer, publishers, consumer, sent, handedOut⟩ := e
    cases consumer <;> rfl
  | receive =>
    simp only [turn, Turn.map, map, Consumer.step_map]
    cases (e.consumer.step e.buffer).2.2 with
    | none => simp
    | some result => cases result <;> simp

theorem run_map (f : α → β) (e : Exchange α) (turns : List (Turn α)) :
    (e.map f).run (turns.map (Turn.map f)) = (e.run turns).map f := by
  induction turns generalizing e with
  | nil => rfl
  | cons t turns ih =>
    rw [List.map_cons, run, List.foldl_cons, ← run, turn_map, ih]
    rfl

theorem run_append (e : Exchange α) (turns : List (Turn α)) (t : Turn α) :
    e.run (turns ++ [t]) = (e.run turns).turn t := by
  simp [run]

section Conservation

variable {e : Exchange α}

def Turn.value? : Turn α → Option α
  | .publish _ value => some value
  | _ => none

/-- The values that publish calls take up. -/
def published (turns : List (Turn α)) : List α := turns.filterMap Turn.value?

def inProgress (e : Exchange α) : List α := e.publishers.filterMap Publisher.value?

/-- What a publisher holds after a step is what it held, less what it sent. -/
theorem value?_step (b : SnapshotBuffer α) (p : Publisher α) :
    p.value?.toList = sends b p ++ (p.step b).1.value?.toList := by
  cases p with
  | idle => rfl
  | sending value =>
    simp only [sends, Publisher.step]
    cases b.trySend value <;> rfl
  | evicting value => rfl

/-- Setting one publisher exchanges its value among those in progress. -/
theorem inProgress_set {publishers : List (Publisher α)} {i : Nat} {p : Publisher α}
    (h : publishers[i]? = some p) :
    ∃ others, publishers.filterMap Publisher.value? ~ p.value?.toList ++ others ∧
      ∀ p' : Publisher α,
        (publishers.set i p').filterMap Publisher.value? ~ p'.value?.toList ++ others := by
  obtain ⟨hi, hp⟩ := List.getElem?_eq_some_iff.1 h
  have hcons : ∀ p : Publisher α, ∀ ps : List (Publisher α),
      (p :: ps).filterMap Publisher.value? = p.value?.toList ++ ps.filterMap Publisher.value? := by
    intro p ps
    rw [List.filterMap_cons]
    cases p.value? <;> rfl
  refine ⟨(publishers.eraseIdx i).filterMap Publisher.value?, ?_, fun p' => ?_⟩
  · rw [← hcons, ← hp]
    exact (List.getElem_cons_eraseIdx_perm hi).symm.filterMap _
  · rw [← hcons]
    exact (List.set_perm_cons_eraseIdx hi p').filterMap _

theorem turn_publish_idle {i : Nat} {value : α} (h : e.publishers[i]? = some .idle) :
    e.turn (.publish i value) =
      { e with publishers := e.publishers.set i (.sending value) } := by
  rw [turn, h]

theorem turn_publish_of_ne {i : Nat} {value : α} (h : e.publishers[i]? ≠ some .idle) :
    e.turn (.publish i value) = e := by
  rw [turn]
  split
  · next hidle => exact absurd hidle h
  · rfl

theorem turn_advance {i : Nat} {p : Publisher α} (h : e.publishers[i]? = some p) :
    e.turn (.advance i) =
      { e with
        buffer := (p.step e.buffer).2
        publishers := e.publishers.set i (p.step e.buffer).1
        sent := e.sent ++ sends e.buffer p } := by
  rw [turn, h]

theorem turn_advance_none {i : Nat} (h : e.publishers[i]? = none) :
    e.turn (.advance i) = e := by
  rw [turn, h]

/-- The consumer's turns touch no publisher. -/
theorem turn_consumer {t : Turn α} (h : t = .poll ∨ t = .receive) :
    (e.turn t).sent = e.sent ∧ (e.turn t).publishers = e.publishers := by
  obtain rfl | rfl := h
  · rw [turn]
    split <;> exact ⟨rfl, rfl⟩
  · exact ⟨rfl, rfl⟩

theorem inProgress_publish {i : Nat} {value : α} (h : e.publishers[i]? = some .idle) :
    (e.turn (.publish i value)).inProgress ~ e.inProgress ++ [value] := by
  obtain ⟨others, hbefore, hafter⟩ := inProgress_set h
  rw [turn_publish_idle h]
  calc (e.publishers.set i (.sending value)).filterMap Publisher.value?
      ~ [value] ++ others := hafter (.sending value)
    _ ~ others ++ [value] := List.perm_append_comm
    _ ~ e.inProgress ++ [value] := hbefore.symm.append_right _

/-- A publisher's step moves its value from those in progress to those sent, or leaves it. -/
theorem sent_inProgress_advance {i : Nat} {p : Publisher α} (h : e.publishers[i]? = some p) :
    (e.turn (.advance i)).sent ++ (e.turn (.advance i)).inProgress ~ e.sent ++ e.inProgress := by
  obtain ⟨others, hbefore, hafter⟩ := inProgress_set h
  rw [turn_advance h, List.append_assoc]
  refine List.Perm.append_left _ ?_
  calc sends e.buffer p ++ (e.publishers.set i (p.step e.buffer).1).filterMap Publisher.value?
      ~ sends e.buffer p ++ ((p.step e.buffer).1.value?.toList ++ others) :=
        (hafter _).append_left _
    _ = p.value?.toList ++ others := by rw [value?_step e.buffer p, List.append_assoc]
    _ ~ e.inProgress := hbefore.symm

/-- Every value that was sent or is about to be was taken up by a publish call of its own. -/
theorem sent_inProgress_turn (e : Exchange α) (t : Turn α) :
    (e.turn t).sent ++ (e.turn t).inProgress <+~ e.sent ++ e.inProgress ++ published [t] := by
  have hsame : ∀ e' : Exchange α, e'.sent = e.sent → e'.publishers = e.publishers →
      e'.sent ++ e'.inProgress <+~ e.sent ++ e.inProgress ++ published [t] := by
    intro e' hsent hpublishers
    rw [inProgress, hsent, hpublishers]
    exact (List.sublist_append_left _ _).subperm
  cases t with
  | publish i value =>
    by_cases hidle : e.publishers[i]? = some .idle
    · have hsent : (e.turn (.publish i value)).sent = e.sent := by rw [turn_publish_idle hidle]
      rw [hsent, List.append_assoc]
      exact ((inProgress_publish hidle).append_left _).subperm
    · rw [turn_publish_of_ne hidle]
      exact hsame e rfl rfl
  | advance i =>
    cases hp : e.publishers[i]? with
    | none =>
      rw [turn_advance_none hp]
      exact hsame e rfl rfl
    | some p =>
      exact (sent_inProgress_advance hp).subperm.trans (List.sublist_append_left _ _).subperm
  | poll => exact hsame _ (turn_consumer (Or.inl rfl)).1 (turn_consumer (Or.inl rfl)).2
  | receive => exact hsame _ (turn_consumer (Or.inr rfl)).1 (turn_consumer (Or.inr rfl)).2

theorem sent_inProgress_run (capacity publishers : Nat) (turns : List (Turn α)) :
    ((new capacity publishers).run turns).sent ++
      ((new capacity publishers).run turns).inProgress <+~ published turns := by
  induction turns using List.reverseRecOn with
  | nil =>
    have hidle : ((new capacity publishers).run []).inProgress = ([] : List α) :=
      List.filterMap_eq_nil_iff.2 fun p hp => by rw [List.eq_of_mem_replicate hp]; rfl
    rw [hidle]
    exact List.nil_subperm
  | append_singleton turns t ih =>
    rw [run_append, published, List.filterMap_append]
    exact (sent_inProgress_turn _ t).trans ((List.subperm_append_right _).2 ih)

/-- A value is sent at most as often as it is published. -/
theorem sent_subperm_published (capacity publishers : Nat) (turns : List (Turn α)) :
    ((new capacity publishers).run turns).sent <+~ published turns :=
  (List.sublist_append_left _ _).subperm.trans (sent_inProgress_run capacity publishers turns)

/-- The turns with every value marked by the place of its turn, so that no two are the same. -/
def numbered (turns : List (Turn α)) : List (Turn (Nat × α)) :=
  turns.zipIdx.map fun x => x.1.map (x.2, ·)

theorem numbered_map_snd (turns : List (Turn α)) :
    (numbered turns).map (Turn.map Prod.snd) = turns := by
  have hmap : ∀ x : Turn α × Nat, (x.1.map (x.2, ·)).map Prod.snd = x.1 := by
    rintro ⟨t, n⟩
    cases t <;> rfl
  simp [numbered, Function.comp_def, hmap]

theorem published_numbered_nodup (turns : List (Turn α)) : (published (numbered turns)).Nodup := by
  have hplaces : turns.zipIdx.Pairwise fun x y => x.2 < y.2 := by
    rw [← List.pairwise_map (f := Prod.snd), List.zipIdx_map_snd]
    exact List.pairwise_lt_range'
  have hvalue : ∀ x : Turn α × Nat, ∀ v ∈ (x.1.map (x.2, ·)).value?, v.1 = x.2 := by
    rintro ⟨t, n⟩ v hv
    cases t with
    | publish => rw [← Option.some.inj hv]
    | advance | poll | receive => cases hv
  rw [published, numbered, List.filterMap_map, List.Nodup, List.pairwise_filterMap]
  refine hplaces.imp fun {x y} hlt v hv w hw heq => ?_
  rw [← hvalue x v hv, ← hvalue y w hw, heq] at hlt
  exact Nat.lt_irrefl _ hlt

/-- No two values sent are the same publish call's. -/
theorem sent_numbered_nodup (capacity publishers : Nat) (turns : List (Turn α)) :
    ((new capacity publishers).run (numbered turns)).sent.Nodup := by
  obtain ⟨values, hperm, hsub⟩ := sent_subperm_published capacity publishers (numbered turns)
  exact hperm.nodup_iff.1 ((published_numbered_nodup turns).sublist hsub)

end Conservation

end Exchange
end RobotConsole
