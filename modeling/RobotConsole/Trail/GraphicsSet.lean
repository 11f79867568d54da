import RobotConsole.Memory

/-!
Sets of drawable graphics.  A set grows with graphics from a supply and shrinks from its end, and
tells its observer when its size has changed.  What happens during a resize is an ordered list of
events.
-/

namespace RobotConsole

/-- Graphics `γ` in order, with at most one observer, known by its name `ω`. -/
structure GraphicsSet (γ ω : Type) where
  elements : List γ
  observer : Option ω

inductive ResizeEvent (γ ω : Type) where
  | built (index : Nat) (graphic : γ)
  | truncated (size : Nat)
  | notified (observer : ω)

/-- A source of new graphics, whose state is `σ`. -/
abbrev Supply (σ γ : Type) := σ → γ × σ

namespace GraphicsSet

variable {γ ω σ : Type}

def empty : GraphicsSet γ ω := ⟨[], none⟩

/-- Registers an observer in place of the one before. -/
def observe (s : GraphicsSet γ ω) (observer : ω) : GraphicsSet γ ω :=
  { s with observer := some observer }

def size (s : GraphicsSet γ ω) : Nat := s.elements.length

def isEmpty (s : GraphicsSet γ ω) : Bool := s.elements.isEmpty

def get? (s : GraphicsSet γ ω) (index : Nat) : Option γ := s.elements[index]?

def map (f : γ → γ) (s : GraphicsSet γ ω) : GraphicsSet γ ω :=
  { s with elements := s.elements.map f }

def take (supply : Supply σ γ) : Nat → σ → List γ × σ
  | 0, state => ([], state)
  | n + 1, state =>
    let (graphic, state) := supply state
    let (rest, state) := take supply n state
    (graphic :: rest, state)

def fits (target octets : Nat) : Bool := Memory.fits target octets

structure Resized (γ ω σ : Type) where
  set : GraphicsSet γ ω
  state : σ
  events : List (ResizeEvent γ ω)

/-- Grows or shrinks to `target` graphics, and tells the observer if that changed the size. -/
def resize (s : GraphicsSet γ ω) (target : Nat) (supply : Supply σ γ) (state : σ) :
    Resized γ ω σ :=
  let notice := s.observer.toList.map ResizeEvent.notified
  if target = s.size then ⟨s, state, []⟩
  else if s.size < target then
    let (new, state) := take supply (target - s.size) state
    let built := new.mapIdx fun i graphic => ResizeEvent.built (s.size + i) graphic
    ⟨{ s with elements := s.elements ++ new }, state, built ++ notice⟩
  else ⟨{ s with elements := s.elements.take target }, state, .truncated target :: notice⟩

def Resized.notified (r : Resized γ ω σ) : List ω :=
  r.events.filterMap fun
    | .notified observer => some observer
    | _ => none

def describe [ToString γ] (s : GraphicsSet γ ω) : String :=
  let elements := String.intercalate ", " (s.elements.map toString)
  s!"GraphicsSet \x7b elements: [{elements}], observed: {s.observer.isSome} \x7d"

end GraphicsSet
end RobotConsole
