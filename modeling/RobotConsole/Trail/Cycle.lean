import RobotConsole.Robot.Message
import RobotConsole.Trail.GraphicsSet
import RobotConsole.Trail.History

/-!
The trails of a team.  A cycle keeps one history of positions and one graphic for each robot of the
last snapshot, in the snapshot's order.  A robot keeps its history while every snapshot lists it;
one that leaves loses it.
-/

namespace RobotConsole

/-- A graphic that shows a list of points, oldest first. -/
class TrailGraphic (γ : Type) where
  setPoints : List Position → γ → γ

structure RobotTrail where
  robot : UInt32
  positions : History Position
  deriving DecidableEq

inductive CycleState where
  | uninitialized
  | tracking
  deriving DecidableEq, Repr

inductive TickOutcome where
  /-- There was no new snapshot. -/
  | skipped
  | updated (robots : Nat)
  deriving DecidableEq, Repr

structure TrailCycle (γ ω : Type) where
  trailLength : Nat
  state : CycleState
  histories : List RobotTrail
  graphics : GraphicsSet γ ω

structure Ticked (γ ω σ : Type) where
  outcome : TickOutcome
  cycle : TrailCycle γ ω
  state : σ
  notified : List ω

namespace TrailCycle

variable {γ ω σ : Type}

def defaultLength : Nat := 60

/-- A cycle that has seen no snapshot; a trail holds at least one position. -/
def new (trailLength : Nat) (graphics : GraphicsSet γ ω) : TrailCycle γ ω :=
  ⟨max trailLength 1, .uninitialized, [], graphics⟩

def observe (c : TrailCycle γ ω) (observer : ω) : TrailCycle γ ω :=
  { c with graphics := c.graphics.observe observer }

/-- Puts a trail among others in place of the trail of the same robot. -/
def file (pool : List RobotTrail) (trail : RobotTrail) : List RobotTrail :=
  trail :: pool.filter fun t => t.robot ≠ trail.robot

/-- One trail for each robot that has any; of several the last. -/
def pool (trails : List RobotTrail) : List RobotTrail := trails.foldl file []

/-- The trails of robots in order.  Each robot takes its trail out of the pool when it is listed
first; one that finds none there starts anew. -/
def assign (trailLength : Nat) (pool : List RobotTrail) : List RobotState → List RobotTrail
  | [] => []
  | r :: rest =>
    (pool.find? fun t => t.robot = r.id).getD ⟨r.id, .new trailLength⟩ ::
      assign trailLength (pool.filter fun t => t.robot ≠ r.id) rest

def aligned (trails : List RobotTrail) (robots : List RobotState) : Bool :=
  trails.map RobotTrail.robot = robots.map RobotState.id

def reconcile (trailLength : Nat) (trails : List RobotTrail) (robots : List RobotState) :
    List RobotTrail :=
  if aligned trails robots then trails else assign trailLength (pool trails) robots

def positionOctets : Nat := 8

/-- The robots of a snapshot that start a trail: those whose trail was not left to them by the
snapshot before. -/
def starts (trails : List RobotTrail) (robots : List RobotState) : Bool :=
  !aligned trails robots &&
    (!(robots.map RobotState.id).Nodup || robots.any fun r => trails.all fun t => t.robot ≠ r.id)

/-- Whether there is room for the trails that a snapshot starts.  Graphics are small, so their set has
room wherever the snapshot has and is left out here. -/
def hasRoom (c : TrailCycle γ ω) (snapshot : TeamSnapshot) : Bool :=
  !starts c.histories snapshot.robots || History.fits c.trailLength positionOctets

def extend (trail : RobotTrail) (r : RobotState) : RobotTrail :=
  { trail with positions := trail.positions.push r.position }

/-- Each graphic shows the history in its place. -/
def redraw [TrailGraphic γ] (graphics : List γ) (trails : List RobotTrail) : List γ :=
  List.zipWith (fun g t => TrailGraphic.setPoints t.positions.items g) graphics trails

def apply [TrailGraphic γ] (c : TrailCycle γ ω) (snapshot : TeamSnapshot) (supply : Supply σ γ)
    (state : σ) : Ticked γ ω σ :=
  let trails :=
    List.zipWith extend (reconcile c.trailLength c.histories snapshot.robots) snapshot.robots
  let resized := c.graphics.resize snapshot.size supply state
  { outcome := .updated snapshot.size
    cycle :=
      { c with
        state := .tracking
        histories := trails
        graphics := { resized.set with elements := redraw resized.set.elements trails } }
    state := resized.state
    notified := resized.notified }

def tick [TrailGraphic γ] (c : TrailCycle γ ω) (found : Option TeamSnapshot) (supply : Supply σ γ)
    (state : σ) : Ticked γ ω σ :=
  match found with
  | some snapshot => c.apply snapshot supply state
  | none => ⟨.skipped, c, state, []⟩

def history? (c : TrailCycle γ ω) (robot : UInt32) : Option RobotTrail :=
  c.histories.find? fun t => t.robot = robot

end TrailCycle
end RobotConsole
