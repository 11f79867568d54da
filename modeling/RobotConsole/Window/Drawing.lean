import RobotConsole.Scene.Basic

/-!
The drawing of a scene, as the list of shapes drawn.  The field comes first, then the trails in the
background, those in the foreground, and the robots.
-/

namespace RobotConsole

inductive Shape where
  /-- The whole window in one colour. -/
  | clear (color : Color)
  | rectangle (outline : Rectangle Single) (thickness : Single) (color : Color)
  | line (start stop : Position) (thickness : Single) (color : Color)
  | disc (center : Position) (radius : Single) (color : Color)
  | circle (center : Position) (radius thickness : Single) (color : Color)
  deriving DecidableEq

namespace Scene

def fieldLineThickness : Single := 2

def trailThickness : Single := 2

/-- The radius of a marker, in metres. -/
def markerRadius : Single := 0.09

def leastMarkerRadius : Single := 2

def markerLineThickness : Single := 1

def drawField (s : Scene) (m : Metrics Single) : List Shape :=
  let (top, bottom) := m.halfway s.field
  [.rectangle (m.outline s.field) fieldLineThickness s.lineColor,
    .line top bottom fieldLineThickness s.lineColor]

def drawTrail (m : Metrics Single) (t : TrailLine) : List Shape :=
  (m.segments t.points).map fun (start, stop) => .line start stop trailThickness t.color

def drawTrails (s : Scene) (m : Metrics Single) (depth : Depth) : List Shape :=
  (s.trails.filter fun t => t.depth = depth).flatMap (drawTrail m)

def drawRobots (s : Scene) (m : Metrics Single) : List Shape :=
  let radius := (markerRadius * m.scale).max leastMarkerRadius
  s.robots.flatMap fun r =>
    let center := m.toScreen r.position
    [.disc center radius (.marker r.robot), .circle center radius markerLineThickness .black]

def draw (s : Scene) (width height : Single) : List Shape :=
  let m := s.field.metrics width height
  s.drawField m ++ s.drawTrails m .background ++ s.drawTrails m .foreground ++ s.drawRobots m

end Scene
end RobotConsole
