import RobotConsole.Robot.Message
import RobotConsole.Shell.Command

/-!
What a command leads to.  The number of a motion command is kept within a limit, so that the robot
is only ever sent a finite number that is safe for it.
-/

namespace RobotConsole

/-- The largest number that each motion command may send. -/
structure Limits where
  rotation : Single
  move : Single
  chip : Single
  kick : Single
  dribble : Single
  deriving DecidableEq

namespace Limits

def standard : Limits := ⟨4, 100, 2, 6, 5⟩

end Limits

inductive Outcome where
  /-- Send a primitive and confirm it with a message. -/
  | send (primitive : Primitive) (message : String)
  | showStats (frames : Option Nat)
  | showConfig (frames : Option Nat)
  | restart
  | quit
  deriving DecidableEq

inductive CommandError where
  | invalidDirection (e : UnknownDirection)
  | notFinite (argument : String)
  /-- The limits of an argument are not in order, so that no number is within them. -/
  | brokenLimit (argument : String)
  deriving DecidableEq, Repr

namespace CommandError

def message : CommandError → String
  | .invalidDirection e => s!"invalid command: {e.message}"
  | .notFinite argument => s!"{argument} must be a finite number"
  | .brokenLimit argument => s!"no {argument} is within its limits"

end CommandError

namespace ShellCommand

/-- The number nearest to `x` between two limits. -/
def limited (argument : String) (x lo hi : Single) : Except CommandError Single :=
  if x.isFinite then
    match x.clamp? lo hi with
    | some y => .ok y
    | none => .error (.brokenLimit argument)
  else .error (.notFinite argument)

def outcome (limits : Limits) : ShellCommand → Except CommandError Outcome
  | .rotate velocity => do
    let v ← limited "velocity" velocity (-limits.rotation) limits.rotation
    return .send (.rotate v) s!"Rotating at {v.text} rad/s"
  | .move direction speed => do
    let d ← (Direction.ofText direction).mapError .invalidDirection
    let s ← limited "speed" speed 0 limits.move
    return .send (.move d d.heading s)
      s!"Going {d.name} and mapping to {d.heading} at the current speed {s.text}"
  | .chip distance => do
    let d ← limited "distance" distance 0 limits.chip
    return .send (.chip d) s!"Chipping {d.text} meters"
  | .kick speed => do
    let s ← limited "speed" speed 0 limits.kick
    return .send (.kick s) s!"Kicking at {s.text} meters per second"
  | .dribble velocity => do
    let v ← limited "velocity" velocity 0 limits.dribble
    return .send (.dribble v) s!"Spinning dribbler at {v.text} rad per second"
  | .stop => .ok (.send .stop "Stopping robot")
  | .stats frames => .ok (.showStats frames)
  | .config frames => .ok (.showConfig frames)
  | .restart => .ok .restart
  | .quit => .ok .quit

end ShellCommand
end RobotConsole
