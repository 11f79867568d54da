import RobotConsole.Scene.Color
import RobotConsole.Scene.Field
import RobotConsole.Trail.Cycle

/-!
Scenes: the field, the trails of the robots, and a marker at each robot's latest position.
-/

namespace RobotConsole

inductive Depth where
  | background
  | foreground
  deriving DecidableEq, Repr

/-- An open line through points, oldest first. -/
structure TrailLine where
  color : Color
  depth : Depth
  points : List Position
  deriving DecidableEq

namespace TrailLine

/-- A line without points, in the colour of graphics that have none of their own. -/
def standard : TrailLine := ⟨.standard, .background, []⟩

instance : TrailGraphic TrailLine where
  setPoints points line := { line with points := points }

end TrailLine

structure Marker where
  robot : UInt32
  position : Position
  deriving DecidableEq

structure Scene where
  field : Field Single
  lineColor : Color
  trails : List TrailLine
  robots : List Marker

def Scene.empty (field : Field Single) (lineColor : Color) : Scene := ⟨field, lineColor, [], []⟩

end RobotConsole
