import RobotConsole.Text.Integer
import RobotConsole.Toml.Basic

/-!
Numbers of a TOML document.  Single underscores may stand between digits.  An integer fits into
sixty-four bits; a float is the double nearest to its decimal value, and not beyond the largest.
-/

namespace RobotConsole.Toml

/-- Digits of a kind after one that has been read. -/
def moreDigits (isDigit : Char → Bool) : List Char → Option (List Char × List Char)
  | [] => some ([], [])
  | '_' :: c :: rest =>
    if isDigit c then (moreDigits isDigit rest).map fun (ds, rest) => (c :: ds, rest) else none
  | c :: rest =>
    if isDigit c then (moreDigits isDigit rest).map fun (ds, rest) => (c :: ds, rest)
    else some ([], c :: rest)

def someDigits (isDigit : Char → Bool) : List Char → Option (List Char × List Char)
  | c :: rest =>
    if isDigit c then (moreDigits isDigit rest).map fun (ds, rest) => (c :: ds, rest) else none
  | [] => none

def readSign : List Char → Option Bool × List Char
  | '+' :: rest => (some false, rest)
  | '-' :: rest => (some true, rest)
  | cs => (none, cs)

/-- Decimal digits; nothing belongs to them after a zero at the start. -/
def readWhole : List Char → Option (List Char × List Char)
  | '0' :: rest => some (['0'], rest)
  | cs => someDigits Char.isDigit cs

def natOfBase (base : Nat) (ds : List Char) : Nat :=
  ds.foldl (fun n c => base * n + (Text.hexDigit? c).getD 0) 0

/-- A number that fits into sixty-four bits with its sign. -/
def ofInteger? (n : Int) : Option Toml :=
  if -(2 ^ 63) ≤ n ∧ n < 2 ^ 63 then some (.integer n) else none

/-- The digits after the letter of a base. -/
def readBased (base : Nat) (isDigit : Char → Bool) (cs : List Char) :
    Option (Toml × List Char) := do
  let (ds, rest) ← someDigits isDigit cs
  return (← ofInteger? (natOfBase base ds), rest)

def readDecimal (cs : List Char) : Option (Toml × List Char) := do
  let (sign, cs) := readSign cs
  let (ds, rest) ← readWhole cs
  let n : Int := natOfDigits ds
  return (← ofInteger? (if sign = some true then -n else n), rest)

def readInteger : List Char → Option (Toml × List Char)
  | '0' :: 'x' :: cs => readBased 16 (fun c => (Text.hexDigit? c).isSome) cs
  | '0' :: 'o' :: cs => readBased 8 (fun c => '0' ≤ c && c ≤ '7') cs
  | '0' :: 'b' :: cs => readBased 2 (fun c => c = '0' || c = '1') cs
  | cs => readDecimal cs

def readFraction : List Char → Option (Option (List Char) × List Char)
  | '.' :: cs => (someDigits Char.isDigit cs).map fun (ds, rest) => (some ds, rest)
  | cs => some (none, cs)

def readExponent : List Char → Option (Option (Bool × List Char) × List Char)
  | [] => some (none, [])
  | c :: cs =>
    if c = 'e' ∨ c = 'E' then
      let (sign, cs) := readSign cs
      (someDigits Char.isDigit cs).map fun (ds, rest) => (some (sign = some true, ds), rest)
    else some (none, c :: cs)

/-- A number with a fraction or an exponent. -/
def readDecimalFloat (cs : List Char) : Option (Toml × List Char) := do
  let (sign, cs) := readSign cs
  let (whole, cs) ← readWhole cs
  let (fraction, cs) ← readFraction cs
  let (exponent, cs) ← readExponent cs
  let x : Double := (Numeral.mk (sign = some true) whole fraction exponent).toBinary
  if fraction.isNone ∧ exponent.isNone ∨ x = .infinite false then none else some (.float x, cs)

/-- An infinity, or what is no number. -/
def readSpecial (cs : List Char) : Option (Toml × List Char) :=
  let (sign, cs) := readSign cs
  match cs with
  | 'i' :: 'n' :: 'f' :: rest => some (.float (.infinite (sign = some true)), rest)
  | 'n' :: 'a' :: 'n' :: rest => some (.float .nan, rest)
  | _ => none

def readNumber (cs : List Char) : Option (Toml × List Char) :=
  match CalendarTime.read false cs with
  | some (t, rest) => some (.time t, rest)
  | none =>
    match readDecimalFloat cs with
    | some r => some r
    | none =>
      match readSpecial cs with
      | some r => some r
      | none => readInteger cs

end RobotConsole.Toml
