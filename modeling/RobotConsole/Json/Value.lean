import RobotConsole.Json.Basic

/-!
The values that the parts of a JSON document stand for.  A number keeps its digits up to sixty-four
bits; its float is their double, multiplied or divided once by a power of ten.
-/

namespace RobotConsole.Json

inductive Number where
  | integer (value : Int)
  | float (value : Double)
  deriving DecidableEq

/-- The number that digits add to `n` while it fits sixty-four bits, and how many are left out. -/
def takeFitting (n : Nat) : List Char → Nat × Nat
  | [] => (n, 0)
  | c :: ds =>
    let m := 10 * n + (c.toNat - '0'.toNat)
    if m < 2 ^ 64 then takeFitting m ds else (n, ds.length + 1)

def powerOfTen (n : Nat) : Double := .ofDecimal false 1 n

/-- Division by a power of ten, in steps of `10 ^ 308`. -/
def scaleDown (x : Double) (n : Nat) : Double :=
  if n ≤ 308 then x / powerOfTen n
  else if x = .zero false then x
  else scaleDown (x / powerOfTen 308) (n - 308)
termination_by n

/-- The double of `n * 10 ^ exponent`; `none` beyond the largest double. -/
def scaled? (negative : Bool) (n : Nat) (exponent : Int) : Option Double :=
  let x : Double := .ofNat n
  let signed (y : Double) := if negative then -y else y
  if exponent < 0 then some (signed (scaleDown x exponent.natAbs))
  else if n = 0 then some (signed x)
  else if 308 < exponent then none
  else
    let y := x * powerOfTen exponent.toNat
    if y.isFinite then some (signed y) else none

/-- The value of a number; `none` where it is out of range.  A whole number beyond sixty-four bits
and a negative zero are floats. -/
def Number.ofNumeral? (n : Numeral) : Option Number :=
  let (m, left) := takeFitting 0 n.whole
  match n.fraction, n.exponent with
  | none, none =>
    if left = 0 then
      if n.negative then
        some (if 0 < m ∧ m ≤ 2 ^ 63 then .integer (-(m : Int)) else .float (-(.ofNat m)))
      else some (.integer m)
    else (scaled? n.negative m left).map .float
  | fraction, exponent =>
    let part := fraction.getD []
    let (m, unread) := takeFitting m part
    let power : Int := (left : Int) - (part.length - unread : Nat)
    match exponent with
    | none => (scaled? n.negative m power).map .float
    | some (down, ds) =>
      if natOfDigits ds < 2 ^ 31 then
        (scaled? n.negative m (power + Numeral.power exponent)).map .float
      else if m = 0 ∨ down then some (.float (.zero n.negative))
      else none

mutual

/-- Every number is in range, and every string and name is a text. -/
def sound : Json → Bool
  | .number n => (Number.ofNumeral? n).isSome
  | .string raw => (text? raw).isSome
  | .list items => listSound items
  | .object members => membersSound members
  | _ => true

def listSound : List Json → Bool
  | [] => true
  | j :: rest => sound j && listSound rest

def membersSound : List (List Char × Json) → Bool
  | [] => true
  | (name, j) :: rest => (text? name).isSome && sound j && membersSound rest

end

def nat? (bound : Nat) : Json → Option Nat
  | .number n =>
    match Number.ofNumeral? n with
    | some (.integer (.ofNat m)) => if m < bound then some m else none
    | _ => none
  | _ => none

def single? : Json → Option Single
  | .number n =>
    (Number.ofNumeral? n).map fun
      | .integer m => .ofInt m
      | .float x => x.convert
  | _ => none

def bool? : Json → Option Bool
  | .bool b => some b
  | _ => none

def named (name : String) : List (String × Json) → List Json
  | [] => []
  | (n, j) :: rest => if n = name then j :: named name rest else named name rest

def texts? : List (List Char × Json) → Option (List (String × Json))
  | [] => some []
  | (raw, j) :: rest =>
    match text? raw, texts? rest with
    | some n, some ms => some ((n, j) :: ms)
    | _, _ => none

/-- The one value of each name, in the order of the names. -/
def pick? (members : List (String × Json)) : List String → Option (List Json)
  | [] => some []
  | name :: names =>
    match named name members, pick? members names with
    | [j], some js => some (j :: js)
    | _, _ => none

/-- The fields of a record: the members of an object with these names, each of which it has once,
or the items of a list of as many. -/
def fields? (names : List String) : Json → Option (List Json)
  | .object members =>
    match texts? members with
    | some ms => pick? ms names
    | none => none
  | .list items => if items.length = names.length then some items else none
  | _ => none

def record (fields : List (String × Json)) : Json :=
  .object (fields.map fun (name, j) => (name.toList, j))

/-- The number as datagrams write it, where what is not finite is `null`. -/
def ofSingle : Single → Json
  | .nan => .null
  | .signed negative rank _ =>
    if rank < Format.single.infinity then
      .number (NumberStyle.datagram.numeral .single negative rank)
    else .null

def ofNat (n : Nat) : Json := .number ⟨false, Nat.toDigits 10 n, none, none⟩

def ofString (s : String) : Json := .string s.toList

end RobotConsole.Json
