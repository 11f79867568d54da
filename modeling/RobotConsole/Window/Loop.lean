import RobotConsole.Window.Drawing
import RobotConsole.Window.FrameRate

/-!
The render loop.  In every frame the loop first looks at the keys, then clears the window, brings
the scene up to date and draws it; the keys Escape and Q end it.  A window is the list of the frames
that it will show.
-/

namespace RobotConsole

structure Backend where
  swapInterval : Option Int
  showRate : Bool
  deriving DecidableEq, Repr

namespace Backend

def new : Backend := ⟨none, false⟩

def withSwapInterval (b : Backend) (interval : Option Int) : Backend :=
  { b with swapInterval := interval }

def withSync (b : Backend) (enabled : Bool) : Backend :=
  b.withSwapInterval (some (if enabled then 1 else 0))

def withShowRate (b : Backend) (enabled : Bool) : Backend := { b with showRate := enabled }

def describe (b : Backend) : String :=
  let interval := match b.swapInterval with
    | some n => s!"Some({n})"
    | none => "None"
  s!"MacroquadBackend \x7b swap_interval: {interval}, show_fps: {b.showRate} \x7d"

end Backend

structure WindowRequest where
  title : String
  width : Nat
  height : Nat
  swapInterval : Option Int
  deriving DecidableEq, Repr

def Backend.window (b : Backend) (title : String) : WindowRequest := ⟨title, 1080, 760, b.swapInterval⟩

/-- What the loop finds in one frame. -/
structure WindowFrame where
  /-- The names of the keys pressed since the last frame. -/
  pressed : List String
  /-- The seconds since the last frame. -/
  seconds : Single
  width : Single
  height : Single

/-- What the loop does in one frame, in order. -/
structure DrawnFrame where
  /-- What is drawn before the scene is brought forward. -/
  ground : List Shape
  /-- The time by which the scene is brought forward. -/
  delta : Duration
  /-- What is drawn of the scene then. -/
  picture : List Shape

def DrawnFrame.shapes (d : DrawnFrame) : List Shape := d.ground ++ d.picture

namespace RenderLoop

def quitKeys : List String := ["Escape", "Q"]

def quits (f : WindowFrame) : Bool := quitKeys.any f.pressed.contains

/-- The time that a frame brings the scene forward; none back. -/
def delta? (f : WindowFrame) : Option Duration := Duration.ofSingle? (f.seconds.max 0)

variable {σ : Type}

/-- The frames drawn until the loop ends, where `update` brings a scene forward with a state of its
own; `none` where a frame took longer than a duration can say, or where `update` breaks off. -/
def run (clearColor : Color) (update : Duration → σ → Scene → Option (σ × Scene)) (state : σ)
    (scene : Scene) : List WindowFrame → Option (List DrawnFrame)
  | [] => some []
  | f :: rest =>
    if quits f then some []
    else
      match delta? f with
      | none => none
      | some delta =>
        match update delta state scene with
        | none => none
        | some (state, scene) =>
          let drawn : DrawnFrame := ⟨[.clear clearColor], delta, scene.draw f.width f.height⟩
          (run clearColor update state scene rest).map (drawn :: ·)

end RenderLoop
end RobotConsole
