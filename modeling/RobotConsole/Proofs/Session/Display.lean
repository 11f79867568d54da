import Mathlib.Data.List.Basic
import Mathlib.Tactic.Ring
import RobotConsole.Session.Surroundings

/-!
The frames of a display in a session.  A display with a limit draws exactly so many tables, and one
without draws as many as it is watched for, each at its own instant; but it breaks off at the first of
them that cannot be drawn, or for which there is no instant.
-/

namespace RobotConsole.Surroundings

variable (s : Surroundings) (line : Nat) (limit : Option Nat) (table : Instant → BoxTable)

def frameCount : Nat := limit.getD (s.patience line)

/-- Whether there is no instant for a frame; the first one is drawn without a wait. -/
def isLate (frame : Nat) : Bool := frame ≠ 0 ∧ Instant.limit ≤ s.frameTime line frame

/-- The text of a frame, if it can be drawn. -/
def frame? (frame : Nat) : Option String :=
  if s.isLate line frame then none else (table (s.frameTime line frame)).text?

/-- So many frames from one on, up to the first that cannot be drawn, and whether the display breaks
off.  An endless display waits for the instant of the next frame before it ends. -/
def framesFrom (frame : Nat) : Nat → List String × Bool
  | 0 => ([], limit.isNone && s.isLate line frame)
  | count + 1 =>
    match s.frame? line table frame with
    | none => ([], true)
    | some text =>
      let later := framesFrom (frame + 1) count
      (text :: later.1, later.2)

def FirstFrames (texts : List String) : Prop :=
  ∀ frame, (h : frame < texts.length) → s.frame? line table frame = some texts[frame]

def streamAfter (drawn : Nat) : LiveFrames Nat (Option String) where
  render frame := ((table (s.frameTime line frame)).text?, frame + 1)
  state := drawn
  interval := s.refreshInterval
  limit := limit
  remaining := limit.map (· - drawn)
  token := 0
  lastFrame := if drawn = 0 then none else some (s.frameTime line (drawn - 1))

theorem frameTime_succ (frame : Nat) :
    s.frameTime line frame + s.refreshInterval = s.frameTime line (frame + 1) := by
  unfold frameTime
  ring

theorem isBeyondClock_streamAfter (drawn : Nat) :
    LiveFrames.isBeyondClock (s.streamAfter line limit table drawn).interval
      (s.streamAfter line limit table drawn).lastFrame = s.isLate line drawn := by
  cases drawn with
  | zero => rfl
  | succ drawn =>
    simp [streamAfter, LiveFrames.isBeyondClock, isLate, frameTime_succ]

/-- What a display sees when it is asked for a frame that it still draws. -/
theorem looks_of_lt {drawn : Nat} (h : drawn < s.frameCount line limit) :
    ∃ m : Moment, s.looks line limit drawn = [m, m] ∧ m.cancelled 0 = false ∧
      m.now = s.frameTime line drawn := by
  refine ⟨_, rfl, ?_, rfl⟩
  cases limit with
  | none =>
    simp only [frameCount, Option.getD_none] at h
    simp only [true_and, decide_eq_false_iff_not]
    omega
  | some n => simp

theorem wait_streamAfter {drawn : Nat} {m : Moment} (hcancelled : m.cancelled 0 = false)
    (hnow : m.now = s.frameTime line drawn) :
    (s.streamAfter line limit table drawn).wait [m, m] = some (false, [m]) := by
  rw [LiveFrames.wait, show (s.streamAfter line limit table drawn).token = 0 from rfl, hcancelled]
  simp only [Bool.false_eq_true, if_false]
  cases drawn with
  | zero => rfl
  | succ drawn =>
    -- the interval has passed since the frame before
    have hdue : s.frameTime line drawn + s.refreshInterval ≤ m.now := by
      rw [hnow, frameTime_succ]
    simp only [streamAfter, Nat.add_sub_cancel, Nat.succ_ne_zero, if_false, if_pos hdue]

/-- A display is not stopped before it has drawn all its frames. -/
theorem next_of_lt {drawn : Nat} (h : drawn < s.frameCount line limit) :
    (s.streamAfter line limit table drawn).next (s.looks line limit drawn) =
      if s.isLate line drawn then
        (.brokenOff, s.streamAfter line limit table drawn, s.looks line limit drawn)
      else
        (.frame (table (s.frameTime line drawn)).text?, s.streamAfter line limit table (drawn + 1),
          []) := by
  obtain ⟨m, hlooks, hcancelled, hnow⟩ := s.looks_of_lt line limit h
  have hremaining : (s.streamAfter line limit table drawn).remaining ≠ some 0 := by
    cases limit with
    | none => simp [streamAfter]
    | some n =>
      simp only [frameCount, Option.getD_some] at h
      simp only [streamAfter, Option.map_some, ne_eq, Option.some.injEq]
      omega
  rw [hlooks, LiveFrames.next, if_neg hremaining, isBeyondClock_streamAfter,
    s.wait_streamAfter line limit table hcancelled hnow]
  simp [streamAfter, hnow, Option.map_map, Function.comp_def, Nat.sub_sub]

/-- After all its frames a display with a limit has ended, and one without has been stopped. -/
theorem next_of_eq {drawn : Nat} (h : drawn = s.frameCount line limit) :
    ((s.streamAfter line limit table drawn).next (s.looks line limit drawn)).1 =
      if limit.isNone && s.isLate line drawn then .brokenOff else .ended := by
  rw [LiveFrames.next, isBeyondClock_streamAfter]
  cases limit with
  | some n =>
    obtain rfl : drawn = n := h
    simp [streamAfter]
  | none =>
    have hwatched : s.patience line ≤ drawn := h.ge
    have hwait : (s.streamAfter line none table drawn).wait (s.looks line none drawn) =
        some (true, [⟨fun token => token = 0 ∧ True, s.frameTime line drawn⟩]) := by
      simp [looks, LiveFrames.wait, streamAfter, hwatched]
    rw [hwait]
    cases s.isLate line drawn <;> rfl

theorem drawable_cons_none (texts : List (Option String)) (brokenOff : Bool) :
    drawable (none :: texts, brokenOff) = ([], true) := by
  simp [drawable]

theorem drawable_cons_some (text : String) (x : List (Option String) × Bool) :
    drawable (some text :: x.1, x.2) = (text :: (drawable x).1, (drawable x).2) := by
  simp [drawable]

theorem drawn_streamAfter (count drawn : Nat) (h : drawn + count = s.frameCount line limit) :
    drawable ((s.streamAfter line limit table drawn).drawn (s.looks line limit) (count + 1) drawn) =
      s.framesFrom line limit table drawn count := by
  induction count generalizing drawn with
  | zero =>
    have hlast := s.next_of_eq line limit table h
    rw [LiveFrames.drawn, framesFrom]
    generalize (s.streamAfter line limit table drawn).next (s.looks line limit drawn) = call at hlast
    obtain ⟨result, stream, rest⟩ := call
    obtain rfl : result = _ := hlast
    cases limit.isNone && s.isLate line drawn <;> rfl
  | succ count ih =>
    rw [LiveFrames.drawn, next_of_lt s line limit table (by omega), framesFrom, frame?]
    cases s.isLate line drawn with
    | true => rfl
    | false =>
      simp only [Bool.false_eq_true, if_false]
      cases (table (s.frameTime line drawn)).text? with
      | none => exact drawable_cons_none _ _
      | some text => rw [drawable_cons_some, ih (drawn + 1) (by omega)]

theorem frames_eq :
    s.frames line limit table = s.framesFrom line limit table 0 (s.frameCount line limit) := by
  have hstart : s.streamAfter line limit table 0 =
      .new (fun frame => ((table (s.frameTime line frame)).text?, frame + 1)) 0 s.refreshInterval
        limit 0 := by
    simp [streamAfter, LiveFrames.new]
  rw [← drawn_streamAfter s line limit table _ 0 (Nat.zero_add _), hstart]
  rfl

variable {s line limit table} {frame count : Nat}

theorem framesFrom_of_some {text : String} (h : s.frame? line table frame = some text) :
    s.framesFrom line limit table frame (count + 1) =
      (text :: (s.framesFrom line limit table (frame + 1) count).1,
        (s.framesFrom line limit table (frame + 1) count).2) := by
  rw [framesFrom, h]

theorem framesFrom_of_none (h : s.frame? line table frame = none) :
    s.framesFrom line limit table frame (count + 1) = ([], true) := by
  rw [framesFrom, h]

theorem frame?_of_isLate (h : s.isLate line frame = true) : s.frame? line table frame = none :=
  if_pos h

/-- The frames drawn are the first ones, whether the display breaks off or not. -/
theorem frame?_framesFrom (k : Nat) (h : k < (s.framesFrom line limit table frame count).1.length) :
    s.frame? line table (frame + k) = some (s.framesFrom line limit table frame count).1[k] := by
  induction count generalizing frame k with
  | zero => cases h
  | succ count ih =>
    cases hframe : s.frame? line table frame with
    | none =>
      rw [framesFrom_of_none hframe] at h
      cases h
    | some text =>
      simp only [framesFrom_of_some hframe] at h ⊢
      cases k with
      | zero => exact hframe
      | succ k =>
        rw [← Nat.add_assoc, Nat.add_right_comm]
        exact ih k (Nat.lt_of_succ_lt_succ h)

theorem length_framesFrom (h : (s.framesFrom line limit table frame count).2 = false) :
    (s.framesFrom line limit table frame count).1.length = count := by
  induction count generalizing frame with
  | zero => rfl
  | succ count ih =>
    cases hframe : s.frame? line table frame with
    | none =>
      rw [framesFrom_of_none hframe] at h
      cases h
    | some text =>
      simp only [framesFrom_of_some hframe] at h ⊢
      rw [List.length_cons, ih h]

/-- A display breaks off at the frame that would have been the next. -/
theorem frame?_of_brokenOff (h : (s.framesFrom line limit table frame count).2 = true) :
    s.frame? line table (frame + (s.framesFrom line limit table frame count).1.length) = none ∧
      (limit ≠ none → (s.framesFrom line limit table frame count).1.length < count) := by
  induction count generalizing frame with
  | zero =>
    simp only [framesFrom, Bool.and_eq_true, Option.isNone_iff_eq_none] at h
    exact ⟨frame?_of_isLate h.2, fun hne => absurd h.1 hne⟩
  | succ count ih =>
    cases hframe : s.frame? line table frame with
    | none =>
      rw [framesFrom_of_none hframe]
      exact ⟨hframe, fun _ => Nat.succ_pos _⟩
    | some text =>
      simp only [framesFrom_of_some hframe] at h ⊢
      obtain ⟨hnone, hlt⟩ := ih h
      rw [List.length_cons, Nat.add_comm _ 1, ← Nat.add_assoc]
      exact ⟨hnone, fun hne => by have := hlt hne; omega⟩

theorem firstFrames_frames : s.FirstFrames line table (s.frames line limit table).1 := by
  rw [frames_eq]
  intro frame h
  have hframe := frame?_framesFrom frame h
  rwa [Nat.zero_add] at hframe

theorem length_frames (h : (s.frames line limit table).2 = false) :
    (s.frames line limit table).1.length = s.frameCount line limit := by
  rw [frames_eq] at h ⊢
  exact length_framesFrom h

theorem frame?_of_frames (h : (s.frames line limit table).2 = true) :
    s.frame? line table (s.frames line limit table).1.length = none ∧
      (limit ≠ none → (s.frames line limit table).1.length < s.frameCount line limit) := by
  rw [frames_eq] at h ⊢
  have hnext := frame?_of_brokenOff h
  rwa [Nat.zero_add] at hnext

end RobotConsole.Surroundings
