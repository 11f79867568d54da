import RobotConsole.Memory
import RobotConsole.Robot.Message
import RobotConsole.Simulation.Nature

/-!
A simulated team.  Every robot walks at random and bounces off the edges of the field; now and then
the last robot goes to the bench or comes back.
-/

namespace RobotConsole

structure Walker where
  id : UInt32
  position : Position
  heading : Single
  deriving DecidableEq

namespace Walker

/-- How far a robot goes in one step, in metres. -/
def stepLength : Single := 0.05

def halfTurn : Single := 3.141592653589793

/-- A coordinate kept within `-limit` and `limit`, and whether it was beyond them. -/
def bounce (limit x : Single) : Option (Single × Bool) :=
  if limit < x.abs then (x.clamp? (-limit) limit).map fun x => (x, true) else some (x, false)

/-- One step after a turn.  An edge on the left or right turns the heading before one above or below
does. -/
def advance {σ : Type} (n : Nature σ) (limits : Point Single) (turn : Single) (w : Walker) :
    Option Walker :=
  let heading := w.heading + turn
  match bounce limits.x (w.position.x + n.cosine heading * stepLength),
      bounce limits.y (w.position.y + n.sine heading * stepLength) with
  | some (x, beyondX), some (y, beyondY) =>
    let heading := if beyondX then halfTurn - heading else heading
    some { w with position := ⟨x, y⟩, heading := if beyondY then -heading else heading }
  | _, _ => none

def state (w : Walker) : RobotState := ⟨w.id, w.position⟩

end Walker

structure Simulation (σ : Type) where
  state : σ
  /-- The greatest coordinates on the field. -/
  limits : Point Single
  active : List Walker
  bench : Option Walker

namespace Simulation

variable {σ : Type}

def enter (n : Nature σ) (limits : Point Single) (id : UInt32) (s : σ) : Option (Walker × σ) :=
  match n.coordinate limits.x s with
  | none => none
  | some (x, s) =>
    match n.coordinate limits.y s with
    | none => none
    | some (y, s) =>
      let (heading, s) := n.heading s
      some (⟨id, ⟨x, y⟩, heading⟩, s)

def enterAll (n : Nature σ) (limits : Point Single) : List UInt32 → σ → Option (List Walker × σ)
  | [], s => some ([], s)
  | id :: ids, s =>
    match enter n limits id s with
    | none => none
    | some (w, s) => (enterAll n limits ids s).map fun (ws, s) => (w :: ws, s)

def walkerOctets : Nat := 16

def fits (robots : Nat) : Bool := Memory.fits robots walkerOctets

/-- A team of robots numbered from zero, somewhere on the field; `none` if there is no such field or
no room for so many. -/
def new (n : Nature σ) (robots : Nat) (limits : Point Single) (s : σ) : Option (Simulation σ) :=
  if fits robots then
    (enterAll n limits ((List.range robots).map Nat.toUInt32) s).map fun (active, s) =>
      ⟨s, limits, active, none⟩
  else none

/-- Brings the robot back that is on the bench, or sends the last one there if it is not alone. -/
def substitute (m : Simulation σ) : Simulation σ :=
  match m.bench with
  | some w => { m with active := m.active ++ [w], bench := none }
  | none =>
    if 1 < m.active.length then
      { m with active := m.active.dropLast, bench := m.active.getLast? }
    else m

def advanceAll (n : Nature σ) (limits : Point Single) : List Walker → σ → Option (List Walker × σ)
  | [], s => some ([], s)
  | w :: ws, s =>
    let (turn, s) := n.turn s
    match w.advance n limits turn with
    | none => none
    | some w => (advanceAll n limits ws s).map fun (ws, s) => (w :: ws, s)

/-- One step of the team, and what it looks like then. -/
def step (n : Nature σ) (m : Simulation σ) : Option (TeamSnapshot × Simulation σ) :=
  let (substitutes, s) := n.substitutes m.state
  let m := if substitutes then m.substitute else m
  (advanceAll n m.limits m.active s).map fun (active, s) =>
    (⟨active.map Walker.state⟩, { m with state := s, active := active })

def run (n : Nature σ) : (steps : Nat) → Simulation σ → Option (List TeamSnapshot × Simulation σ)
  | 0, m => some ([], m)
  | steps + 1, m =>
    match step n m with
    | none => none
    | some (t, m) => (run n steps m).map fun (ts, m) => (t :: ts, m)

end Simulation
end RobotConsole
