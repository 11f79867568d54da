import RobotConsole.Text.Blank
import RobotConsole.Text.LowerCase

/-!
Directions of travel.  A direction is read from its name in any case, with blanks around it.
-/

namespace RobotConsole

inductive Direction where
  | forward
  | back
  | left
  | right
  deriving DecidableEq, Repr

structure UnknownDirection where
  input : String
  deriving DecidableEq, Repr

namespace UnknownDirection

def message (e : UnknownDirection) : String :=
  s!"'{e.input}' is not a direction (expected forward, back, left or right)"

end UnknownDirection

namespace Direction

def all : List Direction := [.forward, .back, .left, .right]

/-- The heading in degrees, counter-clockwise from the robot's right. -/
def heading : Direction → UInt16
  | .forward => 90
  | .back => 270
  | .left => 180
  | .right => 0

def name : Direction → String
  | .forward => "forward"
  | .back => "back"
  | .left => "left"
  | .right => "right"

/-- The name in datagrams. -/
def tag : Direction → String
  | .forward => "Forward"
  | .back => "Back"
  | .left => "Left"
  | .right => "Right"

def ofName? (name : List Char) : Option Direction := all.find? fun d => d.name.toList = name

def ofTag? (tag : String) : Option Direction := all.find? fun d => d.tag = tag

def ofText (text : String) : Except UnknownDirection Direction :=
  match ofName? (Text.lowerCase (Text.trim text.toList)) with
  | some d => .ok d
  | none => .error ⟨text⟩

end Direction
end RobotConsole
