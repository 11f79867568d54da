import RobotConsole.Binary.Arithmetic
import RobotConsole.Random.WordStream

/-!
Draws from a stream of random words: events of a given probability, and single floats from a range.
-/

namespace RobotConsole

namespace WordStream

/-- A fraction below one, in steps of `2 ^ -23`. -/
def fraction (s : WordStream) : Single × WordStream :=
  let (w, s) := s.next
  (.ofFraction false (w >>> 9).toNat (2 ^ 23), s)

def happens (probability : Double) (s : WordStream) : Bool × WordStream :=
  let (low, s) := s.next
  let (high, s) := s.next
  ((high.toNat * 2 ^ 32 + low.toNat : Int) < (probability * .ofNat (2 ^ 64)).truncate, s)

end WordStream

/-- A range of floats: its lower end, and what a fraction is multiplied with. -/
structure FloatRange where
  low : Single
  scale : Single

namespace FloatRange

def topFraction : Single := .ofFraction false (2 ^ 23 - 1) (2 ^ 23)

def valueAt (r : FloatRange) (fraction : Single) : Single := fraction * r.scale + r.low

/-- The largest scale, of at most this rank, with which the top fraction is not beyond `high`. -/
def fitting (low high : Single) (negative : Bool) :
    (rank : Nat) → rank ≤ Format.single.infinity → FloatRange
  | 0, h => ⟨low, .signed negative 0 h⟩
  | rank + 1, h =>
    let r : FloatRange := ⟨low, .signed negative (rank + 1) h⟩
    if high < r.valueAt topFraction then fitting low high negative rank (Nat.le_of_succ_le h) else r

/-- The range from `low` to `high`, both included; `none` if there is none, or it is too wide. -/
def between? (low high : Single) : Option FloatRange :=
  if low ≤ high ∧ low.isFinite ∧ high.isFinite then
    match (high - low) / topFraction with
    | .nan => none
    | .signed negative rank h =>
      if rank < Format.single.infinity then some (fitting low high negative rank h) else none
  else none

end FloatRange
end RobotConsole
