import RobotConsole.Time

/-!
Live displays.  A stream draws a frame at once and each later one after an interval, until it has
drawn as many as it may or its token is cancelled.  What it sees of the world is a list of moments.
It breaks off where the next frame would be due after the last instant that there is.
-/

namespace RobotConsole

/-- A flag that stops a stream, known by its number. -/
abbrev CancelToken := Nat

/-- What a stream sees when it looks: the tokens cancelled by then, and the clock. -/
structure Moment where
  cancelled : CancelToken → Bool
  now : Instant

/-- A stream whose frames `φ` are drawn from a state `σ`. -/
structure LiveFrames (σ φ : Type) where
  render : σ → φ × σ
  state : σ
  interval : Duration
  limit : Option Nat
  remaining : Option Nat
  token : CancelToken
  lastFrame : Option Instant

inductive FrameResult (φ : Type) where
  | frame (content : φ)
  /-- The stream has ended. -/
  | ended
  /-- The moments ran out while the stream was waiting. -/
  | waiting
  /-- The program ends, since no instant is late enough for the frame. -/
  | brokenOff
  deriving DecidableEq, Repr

namespace LiveFrames

variable {σ φ : Type}

def defaultInterval : Duration := .ofMillis 250

def new (render : σ → φ × σ) (state : σ) (interval : Duration) (limit : Option Nat)
    (token : CancelToken) : LiveFrames σ φ :=
  ⟨render, state, interval, limit, limit, token, none⟩

def restart (s : LiveFrames σ φ) (token : CancelToken) : LiveFrames σ φ :=
  { s with token := token, remaining := s.limit, lastFrame := none }

/-- Whether the frame after the last one is due beyond the range of instants. -/
def isBeyondClock (interval : Duration) (last : Option Instant) : Bool :=
  last.any fun last => Instant.limit ≤ last + interval

/-- The wait for the next frame: whether it was cancelled, and the moments left; `none` where the
moments run out. -/
def wait (s : LiveFrames σ φ) : List Moment → Option (Bool × List Moment)
  | [] => none
  | m :: rest =>
    if m.cancelled s.token then some (true, rest)
    else
      match s.lastFrame with
      | none => some (false, rest)
      | some last => if last + s.interval ≤ m.now then some (false, rest) else wait s rest

/-- The next frame, if there is one, and the moments left.  When it is due is found out before the
token is looked at. -/
def next (s : LiveFrames σ φ) (moments : List Moment) :
    FrameResult φ × LiveFrames σ φ × List Moment :=
  if s.remaining = some 0 then (.ended, s, moments)
  else if isBeyondClock s.interval s.lastFrame then (.brokenOff, s, moments)
  else
    match s.wait moments with
    | none => (.waiting, s, [])
    | some (true, rest) => (.ended, s, rest)
    | some (false, []) => (.waiting, s, [])
    | some (false, m :: rest) =>
      let (content, state) := s.render s.state
      let remaining := s.remaining.map (· - 1)
      (.frame content, { s with state := state, remaining := remaining, lastFrame := some m.now },
        rest)

/-- The frames of a stream that is asked for one after the other, at most `calls` times, and sees
the moments of `looks` at each call; and whether it breaks off. -/
def drawn (s : LiveFrames σ φ) (looks : Nat → List Moment) :
    (calls : Nat) → (call : Nat) → List φ × Bool
  | 0, _ => ([], false)
  | calls + 1, call =>
    match s.next (looks call) with
    | (.frame content, s, _) =>
      let (later, brokenOff) := drawn s looks calls (call + 1)
      (content :: later, brokenOff)
    | (.brokenOff, _) => ([], true)
    | _ => ([], false)

end LiveFrames
end RobotConsole
