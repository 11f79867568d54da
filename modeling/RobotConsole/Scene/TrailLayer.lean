import RobotConsole.Scene.Basic
import RobotConsole.Snapshot.Buffer

/-!
The layer that keeps the trails of a scene up to date.  A refresh takes the newest snapshot from
the layer's buffer, if there is one, and shows the trails and markers that follow from it.
-/

namespace RobotConsole

structure TrailLayer where
  name : String
  source : SnapshotBuffer TeamSnapshot
  cycle : TrailCycle TrailLine Unit
  /-- How often the number of trail graphics has changed. -/
  graphicsChanges : Nat

namespace TrailLayer

def new (name : String) (source : SnapshotBuffer TeamSnapshot) (trailLength : Nat) : TrailLayer :=
  ⟨name, source, .new trailLength ⟨[], some ()⟩, 0⟩

def publish (l : TrailLayer) (snapshot : TeamSnapshot) : TrailLayer :=
  { l with source := l.source.publish snapshot }

/-- The markers of robots that have a position. -/
def markers (trails : List RobotTrail) : List Marker :=
  trails.filterMap fun t => t.positions.newest?.map fun p => ⟨t.robot, p⟩

/-- Whether there is room for the trails that a refresh starts. -/
def hasRoom (l : TrailLayer) : Bool := l.source.latest.1.all l.cycle.hasRoom

def refresh (l : TrailLayer) (scene : Scene) : TickOutcome × TrailLayer × Scene :=
  let (found, source) := l.source.latest
  let t := l.cycle.tick found (fun _ => (TrailLine.standard, ())) ()
  let layer :=
    { l with
      source := source
      cycle := t.cycle
      graphicsChanges := l.graphicsChanges + t.notified.length }
  match t.outcome with
  | .skipped => (.skipped, layer, scene)
  | .updated n =>
    (.updated n, layer,
      { scene with trails := t.cycle.graphics.elements, robots := markers t.cycle.histories })

end TrailLayer
end RobotConsole
