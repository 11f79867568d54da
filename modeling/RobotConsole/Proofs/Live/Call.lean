import RobotConsole.Live.Frames

/-!
One call for a frame.  A look that finds the token cancelled ends the call, and one at which the
frame is due releases it; a look at which neither is the case leaves the stream waiting.  So the
first look of another kind decides.  No look is taken where the limit is used up, nor where the frame
is due beyond the range of instants.
-/

namespace RobotConsole.LiveFrames

variable {σ φ : Type} {s : LiveFrames σ φ} {ms pre rest : List Moment} {m stamp : Moment}
  {stopped : Bool} {content : φ}

/-- Whether a frame is due at an instant: at once, or when the interval since the last one has
passed. -/
def due (interval : Duration) (last : Option Instant) (now : Instant) : Bool :=
  last.all fun last => last + interval ≤ now

/-- Whether a look decides nothing: the token is not cancelled and the frame is not due. -/
structure Idle (token : CancelToken) (interval : Duration) (last : Option Instant) (m : Moment) :
    Prop where
  active : m.cancelled token = false
  early : due interval last m.now = false

abbrev Waits (s : LiveFrames σ φ) (m : Moment) : Prop := Idle s.token s.interval s.lastFrame m

theorem wait_cons (s : LiveFrames σ φ) (m : Moment) (rest : List Moment) :
    s.wait (m :: rest) =
      if m.cancelled s.token then some (true, rest)
      else if due s.interval s.lastFrame m.now then some (false, rest) else s.wait rest := by
  rw [wait, due]
  cases s.lastFrame with
  | none => rfl
  | some last => simp only [Option.all_some, decide_eq_true_eq]

theorem wait_append (h : ∀ x ∈ pre, s.Waits x) : s.wait (pre ++ ms) = s.wait ms := by
  induction pre with
  | nil => rfl
  | cons x pre ih =>
    rw [List.forall_mem_cons] at h
    obtain ⟨⟨hactive, hearly⟩, hpre⟩ := h
    rw [List.cons_append, wait_cons, hactive, hearly]
    exact ih hpre

/-- The first look that does not leave the stream waiting decides. -/
theorem wait_eq_some_iff : s.wait ms = some (stopped, rest) ↔
    ∃ pre m, ms = pre ++ m :: rest ∧ (∀ x ∈ pre, s.Waits x) ∧ m.cancelled s.token = stopped ∧
      (stopped = false → due s.interval s.lastFrame m.now = true) := by
  constructor
  · intro h
    induction ms with
    | nil => cases h
    | cons x ms ih =>
      rw [wait_cons] at h
      split at h
      · next hcancelled =>
        cases h
        exact ⟨[], x, rfl, by simp, hcancelled, by simp⟩
      · next hactive =>
        rw [Bool.not_eq_true] at hactive
        split at h
        · next hdue =>
          cases h
          exact ⟨[], x, rfl, by simp, hactive, fun _ => hdue⟩
        · next hearly =>
          rw [Bool.not_eq_true] at hearly
          obtain ⟨pre, m, rfl, hpre, hm⟩ := ih h
          exact ⟨x :: pre, m, rfl, List.forall_mem_cons.2 ⟨⟨hactive, hearly⟩, hpre⟩, hm⟩
  · rintro ⟨pre, m, rfl, hpre, hcancelled, hdue⟩
    rw [wait_append hpre, wait_cons, hcancelled]
    cases stopped with
    | true => rfl
    | false => simp [hdue rfl]

def afterFrame (s : LiveFrames σ φ) (now : Instant) : LiveFrames σ φ :=
  { s with
    state := (s.render s.state).2
    remaining := s.remaining.map (· - 1)
    lastFrame := some now }

inductive Called (s : LiveFrames σ φ) :
    List Moment → FrameResult φ × LiveFrames σ φ × List Moment → Prop
  | usedUp (ms : List Moment) (hlimit : s.remaining = some 0) : Called s ms (.ended, s, ms)
  | brokenOff (ms : List Moment) (hlimit : s.remaining ≠ some 0)
      (hbeyond : isBeyondClock s.interval s.lastFrame = true) : Called s ms (.brokenOff, s, ms)
  | stopped (pre rest : List Moment) (m : Moment) (hlimit : s.remaining ≠ some 0)
      (hbeyond : isBeyondClock s.interval s.lastFrame = false) (hpre : ∀ x ∈ pre, s.Waits x)
      (hcancelled : m.cancelled s.token = true) : Called s (pre ++ m :: rest) (.ended, s, rest)
  | drawn (pre rest : List Moment) (m stamp : Moment) (hlimit : s.remaining ≠ some 0)
      (hbeyond : isBeyondClock s.interval s.lastFrame = false) (hpre : ∀ x ∈ pre, s.Waits x)
      (hactive : m.cancelled s.token = false)
      (hdue : due s.interval s.lastFrame m.now = true) :
      Called s (pre ++ m :: stamp :: rest)
        (.frame (s.render s.state).1, s.afterFrame stamp.now, rest)
  | unfinished (ms : List Moment) (hlimit : s.remaining ≠ some 0)
      (hbeyond : isBeyondClock s.interval s.lastFrame = false) : Called s ms (.waiting, s, [])

theorem called_next (s : LiveFrames σ φ) (ms : List Moment) : Called s ms (s.next ms) := by
  rw [next]
  split
  · next hlimit => exact .usedUp ms hlimit
  · next hlimit =>
    split
    · next hbeyond => exact .brokenOff ms hlimit hbeyond
    · next htimely =>
      rw [Bool.not_eq_true] at htimely
      split
      · exact .unfinished ms hlimit htimely
      · next rest hwait =>
        obtain ⟨pre, m, rfl, hpre, hcancelled, -⟩ := wait_eq_some_iff.1 hwait
        exact .stopped pre rest m hlimit htimely hpre hcancelled
      · exact .unfinished ms hlimit htimely
      · next stamp rest hwait =>
        obtain ⟨pre, m, rfl, hpre, hactive, hdue⟩ := wait_eq_some_iff.1 hwait
        exact .drawn pre rest m stamp hlimit htimely hpre hactive (hdue rfl)

theorem exists_called {result : FrameResult φ} (h : (s.next ms).1 = result) :
    ∃ after rest, Called s ms (result, after, rest) := by
  subst h
  exact ⟨_, _, called_next s ms⟩

/-- A call breaks off exactly if a frame is left that is due beyond the range of instants. -/
theorem next_eq_brokenOff_iff : (s.next ms).1 = .brokenOff ↔
    s.remaining ≠ some 0 ∧ isBeyondClock s.interval s.lastFrame = true := by
  constructor
  · intro h
    obtain ⟨after, rest, hcalled⟩ := exists_called h
    cases hcalled with
    | brokenOff _ hlimit hbeyond => exact ⟨hlimit, hbeyond⟩
  · rintro ⟨hlimit, hbeyond⟩
    rw [next, if_neg hlimit, if_pos hbeyond]

/-- A call ends the stream exactly if the limit is used up or the deciding look finds the token
cancelled. -/
theorem next_eq_ended_iff : (s.next ms).1 = .ended ↔
    s.remaining = some 0 ∨ isBeyondClock s.interval s.lastFrame = false ∧
      ∃ pre m rest, ms = pre ++ m :: rest ∧ (∀ x ∈ pre, s.Waits x) ∧
        m.cancelled s.token = true := by
  constructor
  · intro h
    obtain ⟨after, rest, hcalled⟩ := exists_called h
    cases hcalled with
    | usedUp _ hlimit => exact Or.inl hlimit
    | stopped pre rest m _ hbeyond hpre hcancelled =>
      exact Or.inr ⟨hbeyond, pre, m, rest, rfl, hpre, hcancelled⟩
  · rintro (hlimit | ⟨hbeyond, pre, m, rest, rfl, hpre, hcancelled⟩)
    · rw [next, if_pos hlimit]
    · have hwait : s.wait (pre ++ m :: rest) = some (true, rest) :=
        wait_eq_some_iff.2 ⟨pre, m, rfl, hpre, hcancelled, by simp⟩
      rw [next, hwait, hbeyond]
      split <;> rfl

/-- A call gives a frame exactly if the limit is not used up and the deciding look, at which the
frame is due, is followed by another one, at which it is drawn. -/
theorem next_eq_frame_iff : (s.next ms).1 = .frame content ↔
    s.remaining ≠ some 0 ∧ isBeyondClock s.interval s.lastFrame = false ∧
      content = (s.render s.state).1 ∧ ∃ pre m stamp rest,
        ms = pre ++ m :: stamp :: rest ∧ (∀ x ∈ pre, s.Waits x) ∧ m.cancelled s.token = false ∧
          due s.interval s.lastFrame m.now = true := by
  constructor
  · intro h
    obtain ⟨after, rest, hcalled⟩ := exists_called h
    cases hcalled with
    | drawn pre rest m stamp hlimit hbeyond hpre hactive hdue =>
      exact ⟨hlimit, hbeyond, rfl, pre, m, stamp, rest, rfl, hpre, hactive, hdue⟩
  · rintro ⟨hlimit, hbeyond, rfl, pre, m, stamp, rest, rfl, hpre, hactive, hdue⟩
    have hwait : s.wait (pre ++ m :: stamp :: rest) = some (false, stamp :: rest) :=
      wait_eq_some_iff.2 ⟨pre, m, rfl, hpre, hactive, fun _ => hdue⟩
    rw [next, if_neg hlimit, hbeyond, hwait]
    rfl

/-- A moment as a stream sees it: only its own token counts. -/
def ofToken (token : CancelToken) (m : Moment) : Moment := ⟨fun _ => m.cancelled token, m.now⟩

theorem wait_ofToken (s : LiveFrames σ φ) (ms : List Moment) :
    s.wait (ms.map (ofToken s.token)) =
      (s.wait ms).map fun (stopped, rest) => (stopped, rest.map (ofToken s.token)) := by
  induction ms with
  | nil => rfl
  | cons m ms ih =>
    have hactive : (ofToken s.token m).cancelled s.token = m.cancelled s.token := rfl
    have hnow : (ofToken s.token m).now = m.now := rfl
    rw [List.map_cons, wait_cons, wait_cons, hactive, hnow, ih]
    split
    · rfl
    · split <;> rfl

theorem next_ofToken (s : LiveFrames σ φ) (ms : List Moment) :
    s.next (ms.map (ofToken s.token)) =
      ((s.next ms).1, (s.next ms).2.1, (s.next ms).2.2.map (ofToken s.token)) := by
  rw [next, next, wait_ofToken]
  split
  · rfl
  · split
    · rfl
    · rcases s.wait ms with _ | ⟨_ | _, _ | ⟨m, rest⟩⟩ <;> rfl

end RobotConsole.LiveFrames
