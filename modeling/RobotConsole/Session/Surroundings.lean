import RobotConsole.Live.Frames
import RobotConsole.Restart.ExitStatus
import RobotConsole.Robot.Message
import RobotConsole.Robot.Socket
import RobotConsole.Status.Board
import RobotConsole.Store.Basic

/-!
What a session of the shell meets: whether its sends arrive, how long its displays are watched, and
what the robot has told.
-/

namespace RobotConsole

/-- The surroundings of a session.  What happens at a line is known by the number of lines taken
before it. -/
structure Surroundings where
  /-- What keeps the primitive of a line from being sent, if anything does. -/
  sendFailure : (line : Nat) → Primitive → Option SendFailure
  /-- When the display of a line begins. -/
  displayStart : (line : Nat) → Instant
  /-- How many frames the display of a line draws if it has no limit. -/
  patience : (line : Nat) → Nat
  refreshInterval : Duration
  /-- The latest status at an instant. -/
  latestStatus : Instant → Option StatusEntry
  store : Store
  restartCommand : Option String
  runCommand : String → RestartResult

namespace Surroundings

def frameTime (s : Surroundings) (line frame : Nat) : Instant :=
  s.displayStart line + frame * s.refreshInterval

/-- What the stream of a display sees when it is asked for a frame: its own token, zero, is
cancelled once an endless display has been watched long enough. -/
def looks (s : Surroundings) (line : Nat) (limit : Option Nat) (frame : Nat) : List Moment :=
  let cancelled := limit = none ∧ s.patience line ≤ frame
  let m : Moment := ⟨fun token => token = 0 ∧ cancelled, s.frameTime line frame⟩
  [m, m]

/-- The texts of a stream up to the first that cannot be drawn, and whether it breaks off, there or of
itself. -/
def drawable (x : List (Option String) × Bool) : List String × Bool :=
  ((x.1.takeWhile Option.isSome).filterMap id, x.2 || x.1.any Option.isNone)

/-- The frames that the display of a line draws, where `table` is what it shows at an instant, and
whether it breaks off: at a table that cannot be drawn, or beyond the range of instants. -/
def frames (s : Surroundings) (line : Nat) (limit : Option Nat)
    (table : Instant → BoxTable) : List String × Bool :=
  let render (frame : Nat) := ((table (s.frameTime line frame)).text?, frame + 1)
  let stream : LiveFrames Nat (Option String) := .new render 0 s.refreshInterval limit 0
  -- the call after the last frame finds out that the display is over
  drawable (stream.drawn (s.looks line limit) (limit.getD (s.patience line) + 1) 0)

end Surroundings
end RobotConsole
