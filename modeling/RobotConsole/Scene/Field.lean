import RobotConsole.Binary.Numeral
import RobotConsole.Robot.Message
import RobotConsole.Scene.Scalar

/-!
The playing field and its image in a window.  The field lies around the origin of the world; its
image is as large as fits within the window's margins, with the same scale in both directions and
with the world's `y` growing upwards.
-/

namespace RobotConsole

/-- A rectangle around the origin. -/
structure Field (α : Type) where
  length : α
  width : α
  deriving DecidableEq

structure Rectangle (α : Type) where
  corner : Point α
  width : α
  height : α
  deriving DecidableEq

/-- How a world is shown in a window. -/
structure Metrics (α : Type) where
  scale : α
  center : Point α
  deriving DecidableEq

structure InvalidDimensions where
  length : Single
  width : Single
  deriving DecidableEq

def InvalidDimensions.message (e : InvalidDimensions) : String :=
  s!"field dimensions must be positive (received {e.length.text} x {e.width.text})"

namespace Field

def isDimension (x : Single) : Bool := x.isFinite && (0 : Single) < x

def ofDimensions (length width : Single) : Except InvalidDimensions (Field Single) :=
  if isDimension length && isDimension width then .ok ⟨length, width⟩ else .error ⟨length, width⟩

def standardLength : Single := 9

def standardWidth : Single := 6

variable {α : Type} [Scalar α]

/-- The lower left corner. -/
def min (f : Field α) : Point α := ⟨-f.length * Scalar.half, -f.width * Scalar.half⟩

/-- The upper right corner. -/
def max (f : Field α) : Point α := ⟨f.length * Scalar.half, f.width * Scalar.half⟩

/-- What is left free at every edge of a window. -/
def margin : α := Scalar.ofNat 24

/-- The room between the margins, along one side of a window. -/
def room (side : α) : α :=
  Scalar.larger (side - Scalar.ofNat 2 * margin) (Scalar.ofNat 0)

def metrics (f : Field α) (width height : α) : Metrics α where
  scale :=
    Scalar.larger (Scalar.smaller (room width / f.length) (room height / f.width)) (Scalar.ofNat 0)
  center := ⟨width * Scalar.half, height * Scalar.half⟩

end Field

namespace Metrics

variable {α : Type} [Scalar α]

def toScreen (m : Metrics α) (p : Point α) : Point α :=
  ⟨m.center.x + p.x * m.scale, m.center.y - p.y * m.scale⟩

/-- The image of a field, by its upper left corner. -/
def outline (m : Metrics α) (f : Field α) : Rectangle α where
  corner := m.toScreen ⟨f.min.x, f.max.y⟩
  width := f.length * m.scale
  height := f.width * m.scale

/-- The image of the line across the middle of a field, from top to bottom. -/
def halfway (m : Metrics α) (f : Field α) : Point α × Point α :=
  (m.toScreen ⟨Scalar.ofNat 0, f.max.y⟩, m.toScreen ⟨Scalar.ofNat 0, f.min.y⟩)

/-- The images of the lines between neighbouring points. -/
def segments (m : Metrics α) : List (Point α) → List (Point α × Point α)
  | p :: q :: rest => (m.toScreen p, m.toScreen q) :: segments m (q :: rest)
  | _ => []

end Metrics
end RobotConsole
