import RobotConsole.Binary.Arithmetic
import RobotConsole.Robot.Direction

/-!
What robots and the console tell one another: primitives go out, statuses and team snapshots come
in.
-/

namespace RobotConsole

structure Point (α : Type) where
  x : α
  y : α
  deriving DecidableEq

/-- A place on the field, in metres. -/
abbrev Position := Point Single

structure RobotState where
  id : UInt32
  position : Position
  deriving DecidableEq

/-- The robots of a team in the order they were reported; an id may occur twice. -/
structure TeamSnapshot where
  robots : List RobotState
  deriving DecidableEq

namespace TeamSnapshot

def size (s : TeamSnapshot) : Nat := s.robots.length

def isEmpty (s : TeamSnapshot) : Bool := s.robots.isEmpty

end TeamSnapshot

structure RobotStatus where
  robotId : UInt32
  sequenceNumber : UInt64
  /-- Seconds on the robot's clock since the epoch. -/
  timestamp : UInt64
  batteryVoltage : Single
  capacitorVoltage : Single
  /-- The share of primitives that the robot reports as lost, in percent. -/
  primitiveLoss : UInt32
  runningPrimitive : Bool
  deriving DecidableEq

/-- A manual command sent to a robot. -/
inductive Primitive where
  /-- Spin in place, in radians a second, counter-clockwise where positive. -/
  | rotate (velocity : Single)
  /-- Travel along a heading, at a percentage of the greatest speed. -/
  | move (direction : Direction) (heading : UInt16) (speed : Single)
  /-- Chip the ball, in metres up to its first bounce. -/
  | chip (distance : Single)
  /-- Kick the ball, in metres a second. -/
  | kick (speed : Single)
  /-- Spin the dribbler, in radians a second. -/
  | dribble (velocity : Single)
  /-- Halt every actuator. -/
  | stop
  deriving DecidableEq

end RobotConsole
