/-!
Whole numbers read from decimal digits.  The first fault from the left is the one reported: a
character that is no digit, or a digit that takes the number beyond its limit.
-/

namespace RobotConsole.Text

def hexDigit? (c : Char) : Option Nat :=
  if '0' ≤ c ∧ c ≤ '9' then some (c.toNat - '0'.toNat)
  else if 'a' ≤ c ∧ c ≤ 'f' then some (c.toNat - 'a'.toNat + 10)
  else if 'A' ≤ c ∧ c ≤ 'F' then some (c.toNat - 'A'.toNat + 10)
  else none

inductive IntegerFault where
  | empty
  | invalidDigit
  | tooLarge
  | tooSmall
  deriving DecidableEq, Repr

namespace IntegerFault

def message : IntegerFault → String
  | .empty => "cannot parse integer from empty string"
  | .invalidDigit => "invalid digit found in string"
  | .tooLarge => "number too large to fit in target type"
  | .tooSmall => "number too small to fit in target type"

end IntegerFault

/-- The number that digits after `n` lead to, where none on the way may be above `limit`. -/
def readDigits (limit : Nat) (beyond : IntegerFault) (n : Nat) :
    List Char → Except IntegerFault Nat
  | [] => .ok n
  | c :: cs =>
    if c.isDigit then
      let m := 10 * n + (c.toNat - '0'.toNat)
      if limit < m then .error beyond else readDigits limit beyond m cs
    else .error .invalidDigit

/-- A number from zero to `limit`, after an optional plus. -/
def readNatural (limit : Nat) : List Char → Except IntegerFault Nat
  | [] => .error .empty
  | ['+'] => .error .invalidDigit
  | '+' :: cs => readDigits limit .tooLarge 0 cs
  | cs => readDigits limit .tooLarge 0 cs

/-- A number from `-bound` up to `bound - 1`, after an optional sign. -/
def readInteger (bound : Nat) : List Char → Except IntegerFault Int
  | ['-'] => .error .invalidDigit
  | '-' :: cs => (readDigits bound .tooSmall 0 cs).map fun n => -(n : Int)
  | cs => (readNatural (bound - 1) cs).map Int.ofNat

end RobotConsole.Text
