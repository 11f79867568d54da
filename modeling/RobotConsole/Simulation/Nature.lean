import RobotConsole.Binary.Circle
import RobotConsole.Random.Draw

/-!
What a simulated team takes as given: the circular functions, and draws from a source whose state is
of type `σ`.
-/

namespace RobotConsole

structure Nature (σ : Type) where
  sine : Single → Single
  cosine : Single → Single
  /-- Whether a robot is substituted in this step. -/
  substitutes : σ → Bool × σ
  /-- The heading of a robot that enters the field, in radians. -/
  heading : σ → Single × σ
  /-- By how much a robot turns in this step. -/
  turn : σ → Single × σ
  /-- A coordinate from `-limit` to `limit`, if there is such a range. -/
  coordinate : (limit : Single) → σ → Option (Single × σ)

namespace Nature

def substitutionProbability : Double := 0.01

def maxTurn : Single := 0.35

def fullTurn : Single := 6.283185307179586

def turns : FloatRange := (FloatRange.between? (-maxTurn) maxTurn).getD ⟨0, 0⟩

def drawn (r : FloatRange) (s : WordStream) : Single × WordStream :=
  let (u, s) := s.fraction
  (r.valueAt u, s)

/-- Draws from a stream of random words. -/
def standard : Nature WordStream where
  sine := Binary.sine
  cosine := Binary.cosine
  substitutes := WordStream.happens substitutionProbability
  heading := drawn ⟨0, fullTurn⟩
  turn := drawn turns
  coordinate limit s := (FloatRange.between? (-limit) limit).map fun r => drawn r s

end Nature
end RobotConsole
