import RobotConsole.Proofs.Snapshot.Newest

/-!
Reads that find nothing.  A publisher that finds the buffer full takes the oldest value out before
it sends its own, and in between the buffer may be empty.  A read that falls into this gap hands
out nothing although the value sent last was never handed out.  With one publisher no other read
does so, and the gap ends with the publisher's next step.
-/

namespace RobotConsole.Exchange

open scoped List

variable {α : Type} {capacity : Nat} {e : Exchange α} {gone during : List α}

/-- The value that a turn takes out of the buffer to make room. -/
def evicts (e : Exchange α) : Turn α → List α
  | .advance i =>
    match e.publishers[i]? with
    | some (.evicting _) => e.buffer.tryReceive.1.toList
    | _ => []
  | _ => []

/-- The values that publishers take out of the buffer in a run. -/
def evicted (e : Exchange α) : List (Turn α) → List α
  | [] => []
  | t :: turns => e.evicts t ++ (e.turn t).evicted turns

theorem evicted_append (e : Exchange α) (before after : List (Turn α)) :
    e.evicted (before ++ after) = e.evicted before ++ (e.run before).evicted after := by
  induction before generalizing e with
  | nil => rfl
  | cons t before ih => rw [List.cons_append, evicted, ih, evicted, List.append_assoc]; rfl

theorem evicts_advance {i : Nat} {p : Publisher α} (h : e.publishers[i]? = some p)
    (hp : ∀ value, p ≠ .evicting value) : e.evicts (.advance i) = [] := by
  rw [evicts, h]
  cases p with
  | idle => rfl
  | sending => rfl
  | evicting value => exact absurd rfl (hp value)

theorem evicts_advance_evict {i : Nat} {value : α} (h : e.publishers[i]? = some (.evicting value)) :
    e.evicts (.advance i) = e.buffer.queue.head?.toList := by
  rw [evicts, h, SnapshotBuffer.tryReceive_eq]

/-- A turn that takes nothing out and does not lengthen the line. -/
theorem placed_of_sent_eq {e' : Exchange α} {t : Turn α} (h : gone ++ e.line <+~ e.sent)
    (hevicts : e.evicts t = []) (hsent : e'.sent = e.sent) (hline : e'.line <+ e.line) :
    gone ++ e.evicts t ++ e'.line <+~ e'.sent := by
  rw [hevicts, List.append_nil, hsent]
  exact (hline.append_left gone).subperm.trans h

theorem placed_advance (h : gone ++ e.line <+~ e.sent) (i : Nat) :
    gone ++ e.evicts (.advance i) ++ (e.turn (.advance i)).line <+~ (e.turn (.advance i)).sent := by
  cases hp : e.publishers[i]? with
  | none =>
    rw [turn_advance_none hp]
    exact placed_of_sent_eq h (by rw [evicts, hp]) rfl (List.Sublist.refl _)
  | some p =>
    cases p with
    | idle =>
      rw [turn_advance_idle hp]
      exact placed_of_sent_eq h (evicts_advance hp (by simp)) rfl (List.Sublist.refl _)
    | sending value =>
      by_cases hroom : e.buffer.queue.length < e.buffer.capacity
      · rw [evicts_advance hp (by simp), List.append_nil, turn_advance_send hp hroom]
        simpa [line] using (List.subperm_append_right [value]).2 h
      · rw [turn_advance_full hp (Nat.not_lt.1 hroom)]
        exact placed_of_sent_eq h (evicts_advance hp (by simp)) rfl (List.Sublist.refl _)
    | evicting value =>
      have hqueue : e.buffer.queue.head?.toList ++ e.buffer.queue.tail = e.buffer.queue := by
        cases e.buffer.queue <;> rfl
      have hline : e.buffer.queue.head?.toList ++
          (e.handedOut ++ e.consumer.held.toList ++ e.buffer.queue.tail) ~ e.line :=
        (List.perm_append_comm_assoc _ _ _).trans (by rw [hqueue, line])
      rw [evicts_advance_evict hp, turn_advance_evict hp, List.append_assoc]
      exact (hline.append_left gone).subperm.trans h

theorem placed_poll (h : gone ++ e.line <+~ e.sent) :
    gone ++ e.evicts .poll ++ (e.turn .poll).line <+~ (e.turn .poll).sent := by
  refine placed_of_sent_eq h rfl (turn_consumer (Or.inl rfl)).1 ?_
  rw [turn]
  split
  · next hidle => simp [line, hidle, Consumer.held]
  · exact List.Sublist.refl _

theorem placed_receive (h : gone ++ e.line <+~ e.sent) :
    gone ++ e.evicts .receive ++ (e.turn .receive).line <+~ (e.turn .receive).sent := by
  refine placed_of_sent_eq h rfl rfl ?_
  cases hconsumer : e.consumer with
  | idle => rw [turn_receive_idle hconsumer]
  | draining held =>
    cases hqueue : e.buffer.queue with
    | nil =>
      rw [turn_receive_empty hconsumer hqueue]
      simp [line, hconsumer, Consumer.held, hqueue]
    | cons value rest =>
      -- the value held before is skipped
      rw [turn_receive_next hconsumer hqueue]
      simp [line, hconsumer, Consumer.held, hqueue]

/-- No value is in two places: taken out, handed out, with the consumer or in the buffer. -/
theorem placed_turn (h : gone ++ e.line <+~ e.sent) (t : Turn α) :
    gone ++ e.evicts t ++ (e.turn t).line <+~ (e.turn t).sent := by
  cases t with
  | publish i value =>
    refine placed_of_sent_eq h rfl ?_ ?_ <;>
      by_cases hidle : e.publishers[i]? = some .idle
    · rw [turn_publish_idle hidle]
    · rw [turn_publish_of_ne hidle]
    · rw [turn_publish_idle hidle]
      exact List.Sublist.refl _
    · rw [turn_publish_of_ne hidle]
  | advance i => exact placed_advance h i
  | poll => exact placed_poll h
  | receive => exact placed_receive h

theorem placed_run (capacity publishers : Nat) (turns : List (Turn α)) :
    (new capacity publishers).evicted turns ++ ((new capacity publishers).run turns).line <+~
      ((new capacity publishers).run turns).sent := by
  induction turns using List.reverseRecOn with
  | nil => exact List.nil_subperm
  | append_singleton turns t ih =>
    rw [run_append, evicted_append, evicted, evicted, List.append_nil]
    exact placed_turn ih t

/-- The only publisher has a value to send, and room for it. -/
def AboutToSend (e : Exchange α) (next : α) : Prop :=
  e.publishers = [.sending next] ∧ e.buffer.queue.length < e.buffer.capacity

/-- What the turns of one publisher and the consumer keep, where `gone` was taken out so far: the
value sent last is the last in line, or it was taken out and a newer one is about to be sent. -/
structure Serves (gone : List α) (e : Exchange α) : Prop where
  publisher : ∃ p, e.publishers = [p]
  newest : e.line.getLast? = e.sent.getLast? ∨
    (∃ next, e.AboutToSend next) ∧ ∃ value ∈ e.sent.getLast?, value ∈ gone

theorem serves_new (capacity : Nat) : Serves [] (new capacity 1 : Exchange α) :=
  ⟨⟨.idle, rfl⟩, Or.inl rfl⟩

/-- A turn of the consumer leaves what is last in line, and makes no less room. -/
theorem Serves.of_line {e' : Exchange α} (h : Serves gone e) (hsent : e'.sent = e.sent)
    (hpublishers : e'.publishers = e.publishers)
    (hcapacity : e'.buffer.capacity = e.buffer.capacity)
    (hroom : e'.buffer.queue.length ≤ e.buffer.queue.length)
    (hline : e'.line.getLast? = e.line.getLast?) : Serves gone e' := by
  refine ⟨hpublishers ▸ h.publisher, ?_⟩
  rw [hsent, hline]
  refine h.newest.imp_right fun ⟨⟨next, hnext, hlt⟩, hgone⟩ => ⟨⟨next, ?_, ?_⟩, hgone⟩
  · rw [hpublishers, hnext]
  · rw [hcapacity]
    exact Nat.lt_of_le_of_lt hroom hlt

theorem serves_poll (h : Serves gone e) : Serves gone (e.turn .poll) := by
  rw [turn]
  split
  · next hidle =>
    exact h.of_line rfl rfl rfl (Nat.le_refl _) (by simp [line, hidle, Consumer.held])
  · exact h

theorem serves_receive (h : Serves gone e) : Serves gone (e.turn .receive) := by
  cases hconsumer : e.consumer with
  | idle => rwa [turn_receive_idle hconsumer]
  | draining held =>
    cases hqueue : e.buffer.queue with
    | nil =>
      rw [turn_receive_empty hconsumer hqueue]
      exact h.of_line rfl rfl rfl (Nat.le_refl _) (by simp [line, hconsumer, Consumer.held, hqueue])
    | cons value rest =>
      rw [turn_receive_next hconsumer hqueue]
      refine h.of_line rfl rfl rfl (by simp [hqueue]) ?_
      simp [line, hconsumer, Consumer.held, hqueue, List.getLast?_append, List.getLast?_cons]

/-- Where the value sent last may be is clear unless a newer one is about to be sent. -/
theorem Serves.last_of_ne (h : Serves gone e) (hne : ∀ next, e.publishers ≠ [.sending next]) :
    e.line.getLast? = e.sent.getLast? :=
  h.newest.resolve_right fun ⟨⟨next, hnext, _⟩, _⟩ => hne next hnext

theorem serves_publish (h : Serves gone e) (i : Nat) (value : α) :
    Serves gone (e.turn (.publish i value)) := by
  by_cases hidle : e.publishers[i]? = some .idle
  · obtain ⟨p, hp⟩ := h.publisher
    have hi : i = 0 ∧ p = .idle := by simpa [hp, List.getElem?_cons] using hidle
    obtain ⟨rfl, rfl⟩ := hi
    rw [turn_publish_idle hidle]
    refine ⟨⟨.sending value, by simp [hp]⟩, Or.inl ?_⟩
    exact h.last_of_ne (by simp [hp])
  · rwa [turn_publish_of_ne hidle]

/-- Taking out the last value of all leaves room for the one that is about to be sent. -/
theorem serves_evict {value : α} (h : Serves gone e) (hp : e.publishers = [.evicting value]) :
    Serves (gone ++ e.buffer.queue.head?.toList) (e.turn (.advance 0)) := by
  have hlast := h.last_of_ne (by simp [hp])
  have hzero : e.publishers[0]? = some (.evicting value) := by rw [hp]; rfl
  rw [turn_advance_evict hzero]
  refine ⟨⟨.sending value, by simp [hp]⟩, ?_⟩
  cases hqueue : e.buffer.queue with
  | nil =>
    left
    simpa [line, hqueue] using hlast
  | cons oldest rest =>
    cases rest with
    | nil =>
      right
      refine ⟨⟨value, by simp [hp], e.buffer.capacity_pos⟩, oldest, ?_, by simp⟩
      simpa [line, hqueue] using hlast.symm
    | cons next rest =>
      left
      simpa [line, hqueue, List.getLast?_append, List.getLast?_cons] using hlast

theorem serves_advance (h : Serves gone e) (i : Nat) :
    Serves (gone ++ e.evicts (.advance i)) (e.turn (.advance i)) := by
  cases hi : e.publishers[i]? with
  | none =>
    rw [turn_advance_none hi, evicts, hi, List.append_nil]
    exact h
  | some p =>
    obtain ⟨q, hq⟩ := h.publisher
    have hpq : i = 0 ∧ q = p := by simpa [hq, List.getElem?_cons] using hi
    obtain ⟨rfl, rfl⟩ := hpq
    cases q with
    | idle => rwa [turn_advance_idle hi, evicts_advance hi (by simp), List.append_nil]
    | sending value =>
      rw [evicts_advance hi (by simp), List.append_nil]
      by_cases hroom : e.buffer.queue.length < e.buffer.capacity
      · rw [turn_advance_send hi hroom]
        exact ⟨⟨.idle, by simp [hq]⟩, Or.inl (by simp [line, List.getLast?_append])⟩
      · -- the buffer is full, so nothing was taken out for this value yet
        have hlast := h.newest.resolve_right (by
          rintro ⟨⟨value, -, hlt⟩, -⟩
          exact hroom hlt)
        rw [turn_advance_full hi (Nat.not_lt.1 hroom)]
        exact ⟨⟨.evicting value, by simp [hq]⟩, Or.inl hlast⟩
    | evicting value =>
      rw [evicts_advance_evict hi]
      exact serves_evict h hq

theorem serves_turn (h : Serves gone e) (t : Turn α) : Serves (gone ++ e.evicts t) (e.turn t) := by
  cases t with
  | publish i value => simpa [evicts] using serves_publish h i value
  | advance i => exact serves_advance h i
  | poll => simpa [evicts] using serves_poll h
  | receive => simpa [evicts] using serves_receive h

theorem serves_run (capacity : Nat) (turns : List (Turn α)) :
    Serves ((new capacity 1).evicted turns) ((new capacity 1).run turns) := by
  induction turns using List.reverseRecOn with
  | nil => exact serves_new capacity
  | append_singleton turns t ih =>
    rw [run_append, evicted_append, evicted, evicted, List.append_nil]
    exact serves_turn ih t

/-- What a read hands out that ends with this turn. -/
def answer (e : Exchange α) : Turn α → Option (Option α)
  | .receive => (e.consumer.step e.buffer).2.2
  | _ => none

/-- A read that begins now, still goes on after these turns and then finds nothing. -/
structure ReadsNothing (e : Exchange α) (during : List (Turn α)) : Prop where
  idle : e.consumer = .idle
  goesOn : ∀ turns, turns <+: during → ((e.turn .poll).run turns).consumer ≠ .idle
  answer : ((e.turn .poll).run during).answer .receive = some none

/-- A value was sent, and neither it nor a later one has been handed out. -/
def Undelivered (e : Exchange α) (value : α) : Prop :=
  ∃ earlier later, e.sent = earlier ++ value :: later ∧ ∀ v ∈ value :: later, v ∉ e.handedOut

theorem answer_receive_iff : e.answer .receive = some none ↔
    e.consumer = .draining none ∧ e.buffer.queue = [] := by
  cases hconsumer : e.consumer with
  | idle => simp [answer, hconsumer, Consumer.step]
  | draining held =>
    cases hqueue : e.buffer.queue <;>
      simp [answer, hconsumer, Consumer.step, SnapshotBuffer.tryReceive, hqueue]

/-- Values leave the buffer in the order in which they come, while a read has taken none. -/
theorem queue_turn {t : Turn α} (h : e.consumer = .draining none)
    (h' : (e.turn t).consumer = .draining none) :
    (e.turn t).handedOut = e.handedOut ∧ ∃ new, (e.turn t).sent = e.sent ++ new ∧
      e.buffer.queue ++ new = e.evicts t ++ (e.turn t).buffer.queue := by
  cases t with
  | publish i value =>
    by_cases hidle : e.publishers[i]? = some .idle
    · rw [turn_publish_idle hidle]
      exact ⟨rfl, [], by simp, by simp [evicts]⟩
    · rw [turn_publish_of_ne hidle]
      exact ⟨rfl, [], by simp, by simp [evicts]⟩
  | advance i =>
    cases hp : e.publishers[i]? with
    | none =>
      rw [turn_advance_none hp]
      exact ⟨rfl, [], by simp, by simp [evicts, hp]⟩
    | some p =>
      cases p with
      | idle =>
        rw [turn_advance_idle hp]
        exact ⟨rfl, [], by simp, by simp [evicts, hp]⟩
      | sending value =>
        by_cases hroom : e.buffer.queue.length < e.buffer.capacity
        · rw [turn_advance_send hp hroom]
          exact ⟨rfl, [value], rfl, by simp [evicts, hp]⟩
        · rw [turn_advance_full hp (Nat.not_lt.1 hroom)]
          exact ⟨rfl, [], by simp, by simp [evicts, hp]⟩
      | evicting value =>
        rw [turn_advance_evict hp, evicts_advance_evict hp]
        refine ⟨rfl, [], by simp, ?_⟩
        cases e.buffer.queue <;> simp
  | poll =>
    rw [turn, h]
    exact ⟨rfl, [], by simp, by simp [evicts]⟩
  | receive =>
    cases hqueue : e.buffer.queue with
    | nil =>
      rw [turn_receive_empty h hqueue] at h'
      cases h'
    | cons value rest =>
      rw [turn_receive_next h hqueue] at h'
      cases h'

theorem consumer_of_turn {t : Turn α} (hgoes : e.consumer ≠ .idle)
    (h : (e.turn t).consumer = .draining none) : e.consumer = .draining none := by
  obtain ⟨held, hheld⟩ : ∃ held, e.consumer = .draining held := by
    cases hconsumer : e.consumer with
    | idle => exact absurd hconsumer hgoes
    | draining held => exact ⟨held, rfl⟩
  cases t with
  | publish i value =>
    rw [turn] at h
    split at h <;> exact h
  | advance i =>
    rw [turn] at h
    split at h <;> exact h
  | poll => rwa [turn, hheld] at h
  | receive =>
    cases hqueue : e.buffer.queue with
    | nil =>
      rw [turn_receive_empty hheld hqueue] at h
      cases h
    | cons value rest =>
      rw [turn_receive_next hheld hqueue] at h
      cases h

/-- The same while a read goes on that takes nothing. -/
theorem queue_run (turns : List (Turn α))
    (hgoes : ∀ first, first <+: turns → (e.run first).consumer ≠ .idle)
    (h : (e.run turns).consumer = .draining none) :
    e.consumer = .draining none ∧ (e.run turns).handedOut = e.handedOut ∧
      ∃ new, (e.run turns).sent = e.sent ++ new ∧
        e.buffer.queue ++ new = e.evicted turns ++ (e.run turns).buffer.queue := by
  induction turns generalizing e with
  | nil => exact ⟨h, rfl, [], (List.append_nil _).symm, List.append_nil _⟩
  | cons t turns ih =>
    have hrest : ∀ first, first <+: turns → ((e.turn t).run first).consumer ≠ .idle :=
      fun first hfirst => hgoes (t :: first) ((List.prefix_cons_inj t).2 hfirst)
    obtain ⟨hafter, hhanded, new, hsent, hqueue⟩ := ih hrest h
    have hbefore : e.consumer = .draining none :=
      consumer_of_turn (hgoes [] List.nil_prefix) hafter
    obtain ⟨hhanded', new', hsent', hqueue'⟩ := queue_turn hbefore hafter
    refine ⟨hbefore, hhanded.trans hhanded', new' ++ new, ?_, ?_⟩
    · rw [← List.append_assoc, ← hsent']
      exact hsent
    · rw [← List.append_assoc, hqueue', List.append_assoc, hqueue, evicted, List.append_assoc]
      rfl

theorem exists_undelivered_iff :
    (∃ value, e.Undelivered value) ↔ ∃ value ∈ e.sent.getLast?, value ∉ e.handedOut := by
  constructor
  · rintro ⟨value, earlier, later, hsent, hlater⟩
    refine ⟨(value :: later).getLast (by simp), ?_, hlater _ (List.getLast_mem _)⟩
    rw [hsent, List.getLast?_append_of_ne_nil _ (by simp), List.getLast?_eq_some_getLast]
    rfl
  · rintro ⟨value, hlast, hnot⟩
    obtain ⟨earlier, hsent⟩ := List.getLast?_eq_some_iff.1 hlast
    exact ⟨value, earlier, [], hsent, by simpa using hnot⟩

/-- While a read finds nothing, what waited and what was sent since is taken out. -/
theorem ReadsNothing.taken {turns : List (Turn α)} (h : e.ReadsNothing turns) :
    ((e.turn .poll).run turns).consumer = .draining none ∧
      ((e.turn .poll).run turns).buffer.queue = [] ∧
      ((e.turn .poll).run turns).handedOut = e.handedOut ∧
      ∃ new, ((e.turn .poll).run turns).sent = e.sent ++ new ∧
        (e.turn .poll).evicted turns = e.buffer.queue ++ new := by
  obtain ⟨hconsumer, hempty⟩ := answer_receive_iff.1 h.answer
  obtain ⟨-, hhanded, new, hsent, hqueue⟩ := queue_run turns h.goesOn hconsumer
  rw [hempty, List.append_nil] at hqueue
  have hpoll : e.turn .poll = { e with consumer := .draining none } := by rw [turn, h.idle]
  rw [hpoll] at hconsumer hempty hhanded hsent hqueue ⊢
  exact ⟨hconsumer, hempty, hhanded, new, hsent, hqueue.symm⟩

/-- A publisher that has room sends its value with its next step, and the next read finds it. -/
theorem AboutToSend.finished {next : α} (h : e.AboutToSend next) (hconsumer : e.consumer = .idle) :
    (e.turn (.advance 0)).finished.handedOut = e.handedOut ++ [next] := by
  obtain ⟨hpublishers, hroom⟩ := h
  rw [turn_advance_send (by rw [hpublishers]; rfl) hroom, finished_eq, hconsumer]
  simp [Consumer.held, List.getLast?_append]

/-- The value sent last waits or was taken out, if it was not handed out. -/
theorem Serves.mem_of_not_handedOut (h : Serves gone e) (hidle : e.consumer = .idle) {value : α}
    (hlast : value ∈ e.sent.getLast?) (hnot : value ∉ e.handedOut) :
    value ∈ gone ++ e.buffer.queue := by
  rw [List.mem_append]
  obtain hnewest | ⟨-, taken, htaken, hgone⟩ := h.newest
  · have hline : value ∈ e.line := List.mem_of_getLast? (hnewest.trans hlast)
    rw [line, hidle, Consumer.held, Option.toList_none, List.append_nil, List.mem_append] at hline
    exact Or.inr (hline.resolve_left hnot)
  · rw [Option.mem_unique hlast htaken]
    exact Or.inl hgone

theorem Serves.aboutToSend (h : Serves gone e) {value : α} (hlast : value ∈ e.sent.getLast?)
    (hnot : value ∉ e.line) : ∃ next, e.AboutToSend next := by
  obtain hnewest | ⟨hnext, -⟩ := h.newest
  · exact absurd (List.mem_of_getLast? (hnewest.trans hlast)) hnot
  · exact hnext

section Read

variable {turns : List (Turn α)} {before during : List (Turn (Nat × α))}

/-- What was taken out is in no other place. -/
theorem not_mem_line_of_evicted (capacity publishers : Nat) {value : Nat × α}
    (h : value ∈ (new capacity publishers).evicted (numbered turns)) :
    value ∉ ((new capacity publishers).run (numbered turns)).line := by
  obtain ⟨values, hperm, hsub⟩ := placed_run capacity publishers (numbered turns)
  have hnodup := hperm.nodup_iff.1 ((sent_numbered_nodup capacity publishers turns).sublist hsub)
  exact fun hline => (List.nodup_append.1 hnodup).2.2 value h value hline rfl

/-- With one publisher, a read that finds nothing misses the value sent last exactly if that value
was taken out to make room.  The newer one that needs the room is then sent with the publisher's
next step, and the next read hands it out. -/
theorem missed_iff_evicted (capacity : Nat) (hturns : numbered turns = before ++ .poll :: during)
    (hread : ((new capacity 1).run before).ReadsNothing during) :
    let begun := (new capacity 1).run before
    let found := (new capacity 1).run (numbered turns)
    ((∃ value, begun.Undelivered value) ↔
        ∃ value ∈ begun.sent.getLast?, value ∈ (new capacity 1).evicted (numbered turns)) ∧
      ((∃ value, begun.Undelivered value) → ∃ next, found.AboutToSend next ∧
        ((found.turn .receive).turn (.advance 0)).finished.handedOut =
          begun.handedOut ++ [next]) := by
  intro begun found
  have hfound : found = (begun.turn .poll).run during := by
    simp only [found, hturns, run, List.foldl_append, List.foldl_cons]
    rfl
  obtain ⟨hconsumer, hempty, hhanded, sent', hsent, htaken⟩ := hread.taken
  rw [← hfound] at hconsumer hempty hhanded hsent
  have hevicted : (new capacity 1).evicted (numbered turns) =
      (new capacity 1).evicted before ++ (begun.buffer.queue ++ sent') := by
    rw [hturns, evicted_append, evicted, htaken]
    rfl
  have hline : found.line = begun.handedOut := by
    simp [line, hconsumer, hempty, hhanded, Consumer.held, begun]
  have hmissed : (∃ value, begun.Undelivered value) ↔
      ∃ value ∈ begun.sent.getLast?, value ∈ (new capacity 1).evicted (numbered turns) := by
    rw [exists_undelivered_iff]
    refine exists_congr fun value => and_congr_right fun hlast => ⟨fun hnot => ?_, fun hgone => ?_⟩
    · have hmem := (serves_run capacity before).mem_of_not_handedOut hread.idle hlast hnot
      rw [hevicted, ← List.append_assoc]
      exact List.mem_append_left _ hmem
    · exact hline ▸ not_mem_line_of_evicted capacity 1 hgone
  refine ⟨hmissed, fun hundelivered => ?_⟩
  -- what was sent after the read began was taken out as well
  obtain ⟨last, hlast, hgone⟩ : ∃ value ∈ found.sent.getLast?,
      value ∈ (new capacity 1).evicted (numbered turns) := by
    obtain rfl | ⟨earlier, value, rfl⟩ := List.eq_nil_or_concat' sent'
    · rw [hsent, List.append_nil]
      exact hmissed.1 hundelivered
    · exact ⟨value, by simp [hsent, ← List.append_assoc], by simp [hevicted]⟩
  obtain ⟨next, hnext⟩ := (serves_run capacity (numbered turns)).aboutToSend hlast
    (not_mem_line_of_evicted capacity 1 hgone)
  have hreceive : found.turn .receive = { found with consumer := .idle } := by
    rw [turn_receive_empty hconsumer hempty, Option.toList_none, List.append_nil]
  refine ⟨next, hnext, ?_⟩
  rw [← hhanded, hreceive]
  exact AboutToSend.finished (e := { found with consumer := .idle }) hnext rfl

/-- Five values wait, a read takes four of them, and the fifth makes room for a sixth. -/
def fullAndLate : List (Turn Nat) :=
  [.publish 0 1, .advance 0, .publish 0 2, .advance 0, .publish 0 3, .advance 0, .publish 0 4,
    .advance 0, .publish 0 5, .advance 0, .publish 0 6, .advance 0, .poll, .receive, .receive,
    .receive, .receive, .advance 0, .receive]

/-- The next read finds nothing, and the one after the publisher's next step finds the sixth
value. -/
theorem missed_iff_evicted_of_late :
    ((new 5 1).run (numbered fullAndLate)).ReadsNothing [] ∧
      ∃ next, ((new 5 1).run (numbered (fullAndLate ++ [.poll]))).AboutToSend next ∧
        ((((new 5 1).run (numbered (fullAndLate ++ [.poll]))).turn .receive).turn
            (.advance 0)).finished.handedOut =
          ((new 5 1).run (numbered fullAndLate)).handedOut ++ [next] := by
  have hread : ((new 5 1).run (numbered fullAndLate)).ReadsNothing [] := by
    refine ⟨rfl, fun turns hturns => ?_, rfl⟩
    rw [List.prefix_nil.1 hturns]
    nofun
  have hturns : numbered (fullAndLate ++ [.poll]) = numbered fullAndLate ++ [.poll] := rfl
  obtain ⟨hmissed, hnext⟩ := missed_iff_evicted 5 hturns hread
  exact ⟨hread, hnext (hmissed.2 ⟨(8, 5), rfl, by decide⟩)⟩

/-- The fifth value was published, and the read that begins then finds nothing. -/
theorem newest_missed :
    ((new SnapshotBuffer.defaultCapacity 1).run fullAndLate).ReadsNothing [] ∧
      ((new SnapshotBuffer.defaultCapacity 1).run fullAndLate).Undelivered 5 := by
  refine ⟨⟨rfl, fun turns hturns => ?_, rfl⟩, [1, 2, 3, 4], [], rfl, ?_⟩
  · rw [List.prefix_nil.1 hturns]
    nofun
  · decide

end Read

section Capacity

theorem run_run (e : Exchange α) (before after : List (Turn α)) :
    e.run (before ++ after) = (e.run before).run after := List.foldl_append

/-- The publisher sends the numbers below `count`. -/
def filling (count : Nat) : List (Turn Nat) :=
  (List.range count).flatMap fun value => [.publish 0 value, .advance 0]

theorem run_filling {count : Nat} (h : count ≤ max capacity 1) :
    (new capacity 1).run (filling count) =
      ⟨⟨List.range count, max capacity 1, by omega⟩, [.idle], .idle, List.range count, []⟩ := by
  induction count with
  | zero => rfl
  | succ count ih =>
    have hsplit : filling (count + 1) = filling count ++ [.publish 0 count, .advance 0] := by
      simp [filling, List.range_succ]
    have hroom : (List.range count).length < max capacity 1 := by
      rw [List.length_range]
      exact h
    rw [hsplit, run_run, ih (Nat.le_of_succ_le h), run, List.foldl_cons, List.foldl_cons,
      turn_publish_idle rfl, turn_advance_send rfl hroom, List.range_succ]
    rfl

/-- A read takes the values one by one. -/
theorem run_takes {held : Option α} {values rest : List α} (h : e.consumer = .draining held)
    (hqueue : e.buffer.queue = values ++ rest) :
    e.run (List.replicate values.length .receive) =
      { e with
        buffer := { e.buffer with queue := rest }
        consumer := .draining (SnapshotBuffer.drain held values) } := by
  induction values generalizing e held with
  | nil =>
    obtain ⟨⟨queue, capacity, hcapacity⟩, publishers, consumer, sent, handedOut⟩ := e
    obtain rfl : queue = rest := hqueue
    obtain rfl : consumer = .draining held := h
    rfl
  | cons value values ih =>
    rw [List.length_cons, List.replicate_succ, run, List.foldl_cons,
      turn_receive_next h hqueue, ← run]
    exact ih rfl rfl

/-- A read takes all but the last of the values that wait, and that one makes room for a newer. -/
def lateEviction (count : Nat) : List (Turn Nat) :=
  filling (count + 1) ++ ([.publish 0 (count + 1), .advance 0, .poll] ++
    (List.replicate count .receive ++ [.advance 0, .receive]))

theorem run_lateEviction {count : Nat} (h : max capacity 1 = count + 1) :
    (new capacity 1).run (lateEviction count) =
      ⟨⟨[], max capacity 1, by omega⟩, [.sending (count + 1)], .idle, List.range (count + 1),
        (List.range count).getLast?.toList⟩ := by
  have hfull : max capacity 1 ≤ (List.range (count + 1)).length := by
    rw [List.length_range]
    exact Nat.le_of_eq h
  have hlength : (List.range count).length = count := List.length_range
  rw [lateEviction, run_run, run_filling (Nat.le_of_eq h.symm), run_run, run_run]
  have hpoll : Exchange.run ⟨⟨List.range (count + 1), max capacity 1, by omega⟩, [.idle], .idle,
      List.range (count + 1), []⟩ [.publish 0 (count + 1), .advance 0, .poll] =
      ⟨⟨List.range (count + 1), max capacity 1, by omega⟩, [.evicting (count + 1)],
        .draining none, List.range (count + 1), []⟩ := by
    rw [run, List.foldl_cons, List.foldl_cons, turn_publish_idle rfl, turn_advance_full rfl hfull]
    rfl
  have htakes := run_takes (e := ⟨⟨List.range (count + 1), max capacity 1, by omega⟩,
    [.evicting (count + 1)], .draining none, List.range (count + 1), []⟩) rfl List.range_succ
  rw [hlength] at htakes
  rw [hpoll, htakes, run, List.foldl_cons, List.foldl_cons, turn_advance_evict rfl,
    turn_receive_empty rfl rfl, SnapshotBuffer.drain_eq_getLast?, Option.toList_none,
    List.nil_append, List.nil_append]
  rfl

/-- No capacity is large enough for all reads. -/
theorem exists_missed (capacity : Nat) :
    ∃ turns : List (Turn Nat), ((new capacity 1).run turns).ReadsNothing [] ∧
      ∃ value, ((new capacity 1).run turns).Undelivered value := by
  obtain ⟨count, hcount⟩ : ∃ count, max capacity 1 = count + 1 := ⟨max capacity 1 - 1, by omega⟩
  refine ⟨lateEviction count, ?_, count, ?_⟩ <;> rw [run_lateEviction hcount]
  · refine ⟨rfl, fun turns hturns => ?_, rfl⟩
    rw [List.prefix_nil.1 hturns]
    nofun
  · refine ⟨List.range count, [], List.range_succ, ?_⟩
    simp only [List.mem_singleton, forall_eq, Option.mem_toList]
    exact fun hlast => Nat.lt_irrefl count (List.mem_range.1 (List.mem_of_getLast? hlast))

end Capacity

end RobotConsole.Exchange
