import RobotConsole.Binary.Basic

/-!
Arithmetic on binary floating point numbers.  Each operation takes the exact result over smallest
steps and rounds it once.
-/

namespace RobotConsole.Binary

variable {f g : Format}

def neg : Binary f → Binary f
  | .nan => .nan
  | .signed s r h => .signed (!s) r h

def abs : Binary f → Binary f
  | .nan => .nan
  | .signed _ r h => .signed false r h

/-- The number nearest to `num / den` smallest steps, where `zeroNegative` is the sign of zero. -/
def ofSteps (zeroNegative : Bool) (num : Int) (den : Nat) : Binary f :=
  if num = 0 then zero zeroNegative else ofUnits (num < 0) num.natAbs den

/-- The sum; a sum of zero is negative only where both parts are. -/
def add : Binary f → Binary f → Binary f
  | .signed s r hr, .signed t q hq =>
    let a : Binary f := .signed s r hr
    let b : Binary f := .signed t q hq
    if a.isFinite then
      if b.isFinite then ofSteps (s && t) (a.steps + b.steps) 1 else b
    else if b.isFinite || s = t then a
    else .nan
  | _, _ => .nan

def sub (a b : Binary f) : Binary f := add a (neg b)

def mul : Binary f → Binary f → Binary f
  | .signed s r _, .signed t q _ =>
    if r < f.infinity ∧ q < f.infinity then ofUnits (s != t) (f.units r * f.units q) f.one
    else if r = 0 ∨ q = 0 then .nan
    else infinite (s != t)
  | _, _ => .nan

def div : Binary f → Binary f → Binary f
  | .signed s r _, .signed t q _ =>
    if r < f.infinity then
      if q < f.infinity then
        if q = 0 then if r = 0 then .nan else infinite (s != t)
        else ofUnits (s != t) (f.units r * f.one) (f.units q)
      else zero (s != t)
    else if q < f.infinity then infinite (s != t)
    else .nan
  | _, _ => .nan

instance : Neg (Binary f) := ⟨neg⟩

instance : Add (Binary f) := ⟨add⟩

instance : Sub (Binary f) := ⟨sub⟩

instance : Mul (Binary f) := ⟨mul⟩

instance : Div (Binary f) := ⟨div⟩

def ofNat (n : Nat) : Binary f := ofFraction false n 1

def ofInt (n : Int) : Binary f := ofFraction (n < 0) n.natAbs 1

/-- The number `mantissa * 10 ^ exponent`, or its reciprocal power where `down` holds. -/
def ofScientific (mantissa : Nat) (down : Bool) (exponent : Nat) : Binary f :=
  if down then ofFraction false mantissa (10 ^ exponent)
  else ofFraction false (mantissa * 10 ^ exponent) 1

instance (n : Nat) : OfNat (Binary f) n := ⟨ofNat n⟩

instance : OfScientific (Binary f) := ⟨ofScientific⟩

/-- The same number in another format, rounded once. -/
def convert : Binary f → Binary g
  | .nan => .nan
  | .signed s r _ => if r < f.infinity then ofFraction s (f.units r) f.one else infinite s

def truncate (a : Binary f) : Int :=
  Int.tdiv a.steps f.one

end RobotConsole.Binary
