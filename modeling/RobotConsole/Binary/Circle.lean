import RobotConsole.Binary.Arithmetic

/-!
Sine and cosine of single floats.  An angle is taken apart into the nearest whole number of quarter
turns and a rest of at most an eighth of a turn; the sine of the rest, or its cosine after an odd
number of quarter turns, is a polynomial in doubles, rounded once.
-/

namespace RobotConsole.Binary

def dyadic (n k : Nat) : Double := .ofFraction false n (2 ^ k)

namespace Circle

def quarterTurn : Double := dyadic 0x1921fb54442d18 52

/-- How many quarter turns a radian is, times `2 ^ 24`. -/
def turnsPerRadian : Double := dyadic 0x145f306dc9c883 29

/-- Eight quarter turns per pi and two more, as the first 192 bits of four over pi. -/
def fourOverPi : Nat := 0xa2f9836e4e441529fc2757d1f534ddc0db6295993c439041

/-- The sine of a rest. -/
def oddSeries (x : Double) : Double :=
  let square := x * x
  let cube := x * square
  let tail := dyadic 0x11107605230bc4 59 + square * -dyadic 0x1994eb3774cf24 65
  x + cube * -dyadic 0x1555545995a603 55 + cube * square * tail

/-- The cosine of a rest. -/
def evenSeries (x : Double) : Double :=
  let square := x * x
  let fourth := square * square
  let tail := -dyadic 0x16c087e89a359d 62 + square * dyadic 0x199343027bf8c3 68
  let start := 1 + square * -dyadic 0x1ffffffd0c621c 54
  start + fourth * dyadic 0x155553e1068f19 57 + fourth * square * tail

/-- The nearest whole number of quarter turns to an angle below 120 radians, and the rest. -/
def reduceNear (x : Double) : Int × Double :=
  let n := ((x * turnsPerRadian).truncate + 2 ^ 23) / 2 ^ 24
  (n, x - .ofInt n * quarterTurn)

/-- The same for a larger angle of a given rank: its significand times those 96 bits of four over pi
that do not lie above a whole turn, as a number of quarter turns with 62 binary places. -/
def reduceFar (rank : Nat) : Int × Double :=
  let exponent := rank / 2 ^ 23
  let significand := (2 ^ 23 + rank % 2 ^ 23) * 2 ^ (exponent % 8)
  let window := fourOverPi / 2 ^ (8 * (15 - exponent / 8 % 16)) % 2 ^ 96
  let turns : Int := (significand * window / 2 ^ 32 % 2 ^ 64 : Nat)
  let n := (turns + 2 ^ 61) / 2 ^ 62
  (n, .ofInt (turns - n * 2 ^ 62) * dyadic 0x1921fb54442d18 114)

def reduce (angle : Single) (rank : Nat) : Int × Double :=
  let x : Double := angle.convert
  if angle.abs < 0.7853981633974483 then (0, x)
  else if angle.abs < 120 then reduceNear x
  else
    let (n, rest) := reduceFar rank
    if angle.isNegative then (-n, -rest) else (n, rest)

def sineAt (quarters : Int) (rest : Double) : Double :=
  if quarters % 4 = 0 then oddSeries rest
  else if quarters % 4 = 1 then evenSeries rest
  else if quarters % 4 = 2 then -oddSeries rest
  else -evenSeries rest

def sineAfter (quarters : Int) (angle : Single) : Single :=
  match angle with
  | .nan => .nan
  | .signed _ rank _ =>
    if rank < Format.single.infinity then
      let (n, rest) := reduce angle rank
      (sineAt (n + quarters) rest).convert
    else .nan

end Circle

/-- The sine of an angle in radians; zero keeps its sign. -/
def sine (angle : Single) : Single :=
  if angle.abs.equal 0 then angle else Circle.sineAfter 0 angle

def cosine (angle : Single) : Single := Circle.sineAfter 1 angle

end RobotConsole.Binary
