import RobotConsole.Power

/-!
Binary floating point numbers.  A number is a sign and a rank: its place in the ascending list of
the format's magnitudes, zero first and infinity last.  Every magnitude is a whole number of
smallest steps (`Format.units`), and `Format.nearestRank` finds the rank nearest to a fraction of
such steps, a half going to the even rank, so that each operation is an exact one followed by it.
-/

namespace RobotConsole

/-- A radix-two format: the bits of a significand, its leading one included, and of an exponent. -/
structure Format where
  precision : Nat
  exponentBits : Nat
  deriving DecidableEq, Repr

namespace Format

def single : Format := ⟨24, 8⟩

def double : Format := ⟨53, 11⟩

/-- How many ranks lie between a power of two and the next. -/
def binade (f : Format) : Nat := 2 ^ (f.precision - 1)

def infinity (f : Format) : Nat := (2 ^ f.exponentBits - 1) * f.binade

/-- The smallest step is two to the power `-f.scale`. -/
def scale (f : Format) : Nat := 2 ^ (f.exponentBits - 1) + f.precision - 3

/-- One, counted in smallest steps. -/
def one (f : Format) : Nat := 2 ^ f.scale

/-- The magnitude of a rank, counted in smallest steps. -/
def units (f : Format) (rank : Nat) : Nat :=
  if rank / f.binade = 0 then rank
  else (f.binade + rank % f.binade) * 2 ^ (rank / f.binade - 1)

end Format

/-- The integer nearest to `num / den`, a half going to the even one. -/
def roundHalfEven (num den : Nat) : Nat :=
  let q := num / den
  let r := num % den
  if 2 * r < den then q else if den < 2 * r then q + 1 else q + q % 2

/-- The rank nearest to `num / den` smallest steps, a half going to the even one. -/
def Format.nearestRank (f : Format) (num den : Nat) : Nat :=
  let e := Nat.log2 (num / den) + 1 - f.precision
  min (e * f.binade + roundHalfEven num (den * 2 ^ e)) f.infinity

/-- A number of a format; all that are not a number are one value. -/
inductive Binary (f : Format) where
  | nan
  | signed (negative : Bool) (rank : Nat) (bounded : rank ≤ f.infinity)
  deriving DecidableEq

abbrev Single := Binary .single

abbrev Double := Binary .double

namespace Binary

variable {f : Format}

instance : Inhabited (Binary f) := ⟨.signed false 0 (Nat.zero_le _)⟩

def infinite (negative : Bool) : Binary f := .signed negative f.infinity (Nat.le_refl _)

def zero (negative : Bool) : Binary f := .signed negative 0 (Nat.zero_le _)

/-- The number nearest to `num / den` smallest steps. -/
def ofUnits (negative : Bool) (num den : Nat) : Binary f :=
  .signed negative (f.nearestRank num den) (Nat.min_le_right _ _)

def ofFraction (negative : Bool) (num den : Nat) : Binary f :=
  ofUnits negative (num * f.one) den

def isNaN : Binary f → Bool
  | .nan => true
  | .signed .. => false

def isFinite : Binary f → Bool
  | .nan => false
  | .signed _ r _ => r < f.infinity

def isNegative : Binary f → Bool
  | .nan => false
  | .signed s _ _ => s

/-- The order of the numbers, with both zeros in one place. -/
def key : Binary f → Int
  | .nan => 0
  | .signed s r _ => if s then -(r : Int) else r

/-- A finite number in smallest steps, with its sign. -/
def steps : Binary f → Int
  | .nan => 0
  | .signed s r _ => if s then -(f.units r : Int) else f.units r

def less (a b : Binary f) : Bool := !a.isNaN && !b.isNaN && a.key < b.key

def atMost (a b : Binary f) : Bool := !a.isNaN && !b.isNaN && a.key ≤ b.key

/-- Equality of values: the zeros are equal and what is not a number equals nothing. -/
def equal (a b : Binary f) : Bool := !a.isNaN && !b.isNaN && a.key = b.key

instance : LT (Binary f) := ⟨fun a b => less a b = true⟩

instance : LE (Binary f) := ⟨fun a b => atMost a b = true⟩

instance (a b : Binary f) : Decidable (a < b) := inferInstanceAs (Decidable (less a b = true))

instance (a b : Binary f) : Decidable (a ≤ b) := inferInstanceAs (Decidable (atMost a b = true))

/-- The sign bit and the rank as one word; `none` for what is not a number. -/
def toBits : Binary f → Option Nat
  | .nan => none
  | .signed s r _ => some (if s then 2 ^ (f.precision + f.exponentBits - 1) + r else r)

def ofBits (word : Nat) : Binary f :=
  let top := 2 ^ (f.precision + f.exponentBits - 1)
  let rank := word % top
  if h : rank ≤ f.infinity then .signed (word / top % 2 = 1) rank h else .nan

/-- Of two numbers the smaller, and of a number and none the number. -/
def min (a b : Binary f) : Binary f :=
  if a.isNaN then b else if b.isNaN then a else if a ≤ b then a else b

/-- Of two numbers the larger, and of a number and none the number. -/
def max (a b : Binary f) : Binary f :=
  if a.isNaN then b else if b.isNaN then a else if b ≤ a then a else b

/-- The nearest value between two limits; `none` where the limits are not in order. -/
def clamp? (a lo hi : Binary f) : Option (Binary f) :=
  if lo ≤ hi then some (if a < lo then lo else if hi < a then hi else a) else none

end Binary
end RobotConsole
