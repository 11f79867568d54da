import RobotConsole.Binary.Arithmetic
import RobotConsole.Binary.Shortest

/-!
Decimal numerals: digits with an optional point and an optional exponent.  A numeral is read as a
number by one rounding of its exact decimal value; a number is written as the numeral of its
shortest digits, laid out by a style, or of its exact value rounded to a fixed number of places.
-/

namespace RobotConsole

structure Numeral where
  negative : Bool
  whole : List Char
  /-- The digits after the point, if there is a point. -/
  fraction : Option (List Char)
  /-- Whether the exponent is negative, and its digits. -/
  exponent : Option (Bool × List Char)
  deriving DecidableEq, Repr

def natOfDigits (ds : List Char) : Nat := ds.foldl (fun n c => 10 * n + (c.toNat - '0'.toNat)) 0

/-- The number nearest to `digits * 10 ^ exponent`.  Outside the powers of ten compared here every
positive value is beyond the largest number, or below half of the smallest. -/
def Binary.ofDecimal {f : Format} (negative : Bool) (digits : Nat) (exponent : Int) : Binary f :=
  let top := exponent + Decimal.digitCount digits
  if digits = 0 then zero negative
  else if (f.scale : Int) + 1 < top then infinite negative
  else if top < -(f.scale : Int) then zero negative
  else ofFraction negative (digits * 10 ^ exponent.toNat) (10 ^ (-exponent).toNat)

namespace Numeral

def signChars (negative : Bool) : List Char := if negative then ['-'] else []

def fractionChars : Option (List Char) → List Char
  | none => []
  | some ds => '.' :: ds

def exponentChars : Option (Bool × List Char) → List Char
  | none => []
  | some (negative, ds) => 'e' :: (if negative then '-' else '+') :: ds

def chars (n : Numeral) : List Char :=
  signChars n.negative ++ n.whole ++ fractionChars n.fraction ++ exponentChars n.exponent

/-- The power of ten that an exponent stands for. -/
def power : Option (Bool × List Char) → Int
  | none => 0
  | some (negative, ds) => if negative then -(natOfDigits ds : Int) else natOfDigits ds

def toBinary {f : Format} (n : Numeral) : Binary f :=
  let part := n.fraction.getD []
  .ofDecimal n.negative (natOfDigits (n.whole ++ part)) (power n.exponent - part.length)

def splitSign : List Char → Bool × List Char
  | '-' :: cs => (true, cs)
  | '+' :: cs => (false, cs)
  | cs => (false, cs)

/-- The point and its digits at the start of a text and what follows them. -/
def splitFraction : List Char → Option (List Char) × List Char
  | '.' :: cs => (some (cs.takeWhile Char.isDigit), cs.dropWhile Char.isDigit)
  | cs => (none, cs)

def exponent? : List Char → Option (Option (Bool × List Char))
  | [] => some none
  | c :: cs =>
    let (negative, ds) := splitSign cs
    if (c = 'e' ∨ c = 'E') ∧ ds ≠ [] ∧ ds.all Char.isDigit then some (some (negative, ds)) else none

/-- The numeral that a text consists of; digits on one side of a point are enough. -/
def ofChars? (cs : List Char) : Option Numeral :=
  let (negative, cs) := splitSign cs
  let whole := cs.takeWhile Char.isDigit
  let (fraction, rest) := splitFraction (cs.dropWhile Char.isDigit)
  if whole = [] ∧ fraction.getD [] = [] then none
  else (exponent? rest).map fun e => ⟨negative, whole, fraction, e⟩

end Numeral

/-- The number that a text stands for: a numeral, or `inf`, `infinity` or `nan` in any case after
an optional sign. -/
def Binary.ofChars? {f : Format} (cs : List Char) : Option (Binary f) :=
  let (negative, rest) := Numeral.splitSign cs
  let word := String.ofList (rest.map Char.toLower)
  if word = "inf" ∨ word = "infinity" then some (infinite negative)
  else if word = "nan" then some nan
  else (Numeral.ofChars? cs).map Numeral.toBinary

/-- The choices of a notation that writes numbers with their shortest digits. -/
structure NumberStyle where
  tie : Tie
  /-- The powers of ten of a first digit for which a number is written out in full. -/
  inFull : Int → Bool
  /-- What stands after the point of a whole number that is written out in full. -/
  wholeFraction : Option (List Char)

namespace NumberStyle

/-- Messages write every number out in full. -/
def message : NumberStyle := ⟨.up, fun _ => true, none⟩

/-- Settings write every number out in full, with a point. -/
def setting : NumberStyle := ⟨.up, fun _ => true, some ['0']⟩

/-- Datagrams write numbers out in full from a millionth up to ten to the thirteenth. -/
def datagram : NumberStyle := ⟨.even, fun e => -6 ≤ e && e ≤ 12, some ['0']⟩

/-- A decimal number without an exponent. -/
def full (s : NumberStyle) (negative : Bool) (d : Decimal) : Numeral :=
  let ds := Nat.toDigits 10 d.digits
  let places := (-d.exponent).toNat
  if places = 0 then ⟨negative, ds ++ List.replicate d.exponent.toNat '0', s.wholeFraction, none⟩
  else if places < ds.length then
    ⟨negative, ds.take (ds.length - places), some (ds.drop (ds.length - places)), none⟩
  else ⟨negative, ['0'], some (List.replicate (places - ds.length) '0' ++ ds), none⟩

def withExponent (negative : Bool) (d : Decimal) : Numeral :=
  let e := d.leadingExponent
  let ds := Nat.toDigits 10 d.digits
  ⟨negative, ds.take 1, if ds.length = 1 then none else some (ds.drop 1),
    some (e < 0, Nat.toDigits 10 e.natAbs)⟩

def numeral (s : NumberStyle) (f : Format) (negative : Bool) (rank : Nat) : Numeral :=
  let d := if rank = 0 then ⟨0, 0⟩ else f.shortest s.tie rank
  if s.inFull d.leadingExponent then s.full negative d else withExponent negative d

/-- A number as text, where `nan` stands for what is not a number. -/
def write {f : Format} (s : NumberStyle) (nan : String) : Binary f → String
  | .nan => nan
  | .signed negative rank _ =>
    String.ofList <|
      if rank < f.infinity then (s.numeral f negative rank).chars
      else Numeral.signChars negative ++ ['i', 'n', 'f']

end NumberStyle

namespace Binary

variable {f : Format}

/-- A number as messages show it. -/
def text (x : Binary f) : String := NumberStyle.message.write "NaN" x

/-- The exact value rounded to `places` decimal places, a half going to the even neighbour. -/
def fixed (places : Nat) : Binary f → String
  | .nan => "NaN"
  | .signed negative rank _ =>
    String.ofList <| Numeral.signChars negative ++
      if rank < f.infinity then
        let n := roundHalfEven (f.units rank * 10 ^ places) f.one
        let part := Nat.toDigits 10 (n % 10 ^ places)
        Nat.toDigits 10 (n / 10 ^ places) ++
          '.' :: (List.replicate (places - part.length) '0' ++ part)
      else ['i', 'n', 'f']

end Binary
end RobotConsole
