import RobotConsole.Binary.Basic

/-!
The fewest decimal digits that read back as a given number.  The numbers that round to it fill an
interval between two midpoints, whose ends belong to it exactly where its rank is even.  On the
grid of `n` digits only the two neighbours of the number can lie in the interval when any point
does, so the first grid with a hit gives the answer.
-/

namespace RobotConsole

/-- Where a number halfway between two candidates goes. -/
inductive Tie where
  | even
  | up
  deriving DecidableEq, Repr

/-- The decimal number `digits * 10 ^ exponent`. -/
structure Decimal where
  digits : Nat
  exponent : Int
  deriving DecidableEq, Repr

namespace Decimal

def digitCount (n : Nat) : Nat := (Nat.toDigits 10 n).length

/-- The power of ten of the first digit of `num / den`. -/
def leading (num den : Nat) : Int :=
  let a := digitCount num
  let b := digitCount den
  let e : Int := (a : Int) - b
  if den * 10 ^ (a - b) ≤ num * 10 ^ (b - a) then e else e - 1

def leadingExponent (d : Decimal) : Int := (digitCount d.digits : Int) - 1 + d.exponent

/-- A fraction and the fractions that stand for it, over one denominator. -/
structure Interval where
  low : Nat
  value : Nat
  high : Nat
  den : Nat
  closed : Bool

namespace Interval

/-- The interval over the grid of step `10 ^ k`. -/
def scaled (i : Interval) (k : Int) : Interval :=
  let up := 10 ^ (-k).toNat
  { i with low := i.low * up, value := i.value * up, high := i.high * up, den := i.den * 10 ^ k.toNat }

/-- The grid point of the interval nearest to its value. -/
def gridPoint? (tie : Tie) (i : Interval) : Option Nat :=
  let d := i.value / i.den
  let rest := 2 * (i.value % i.den)
  let below := if i.closed then i.low ≤ d * i.den else i.low < d * i.den
  let above := if i.closed then (d + 1) * i.den ≤ i.high else (d + 1) * i.den < i.high
  let upper := i.den < rest ∨ i.den = rest ∧ (tie = .up ∨ d % 2 = 1)
  if below then if above ∧ upper then some (d + 1) else some d
  else if above then some (d + 1)
  else none

/-- The point of the coarsest grid of at most `fuel` digits that meets the interval. -/
def shortest (tie : Tie) (i : Interval) (top : Int) : Nat → Decimal
  | 0 => ⟨i.value / i.den, 0⟩
  | fuel + 1 =>
    match (i.scaled top).gridPoint? tie with
    | some d => ⟨d, top⟩
    | none => shortest tie i (top - 1) fuel

end Interval

def trimmed (d : Decimal) : Decimal := go d.digits d
where
  go : Nat → Decimal → Decimal
    | 0, d => d
    | fuel + 1, d =>
      if d.digits % 10 = 0 ∧ d.digits ≠ 0 then go fuel ⟨d.digits / 10, d.exponent + 1⟩ else d

end Decimal

/-- The fractions that round to a rank. -/
def Format.interval (f : Format) (rank : Nat) : Decimal.Interval where
  low := f.units (rank - 1) + f.units rank
  value := 2 * f.units rank
  high := f.units rank + f.units (rank + 1)
  den := 2 * f.one
  closed := rank % 2 = 0

/-- The shortest decimal number that reads back as the given positive rank. -/
def Format.shortest (f : Format) (tie : Tie) (rank : Nat) : Decimal :=
  let i := f.interval rank
  (i.shortest tie (Decimal.leading i.value i.den) (f.precision + 1)).trimmed

end RobotConsole
