import RobotConsole.Power
import RobotConsole.Restart.Command

/-!
Sums within a script: whole numbers of 64 bits, with the names of variables standing for the numbers
they hold.
-/

namespace RobotConsole.Restart

inductive Sum where
  | number (n : Int)
  | variable (name : String)
  | unary (sign : Char) (a : Sum)
  | binary (sign : String) (a b : Sum)
  | choice (test yes no : Sum)
  | assign (sign : String) (name : String) (a : Sum)
  deriving DecidableEq, Repr

namespace Sum

/-- The 64-bit number that an exact one is kept as. -/
def kept (n : Int) : Int := n.bmod (2 ^ 64)

/-- The nearest number of 64 bits. -/
def clamped (n : Int) : Int := max (-2 ^ 63) (min (2 ^ 63 - 1) n)

def digit? (base : Nat) (c : Char) : Option Nat :=
  let d? :=
    if c.isDigit then some (c.toNat - '0'.toNat)
    else if 'a' ≤ c && c ≤ 'f' then some (c.toNat - 'a'.toNat + 10)
    else if 'A' ≤ c && c ≤ 'F' then some (c.toNat - 'A'.toNat + 10)
    else none
  d?.filter (· < base)

def digits (base : Nat) (n : Nat) : List Char → Nat × List Char
  | [] => (n, [])
  | c :: cs =>
    match digit? base c with
    | some d => digits base (n * base + d) cs
    | none => (n, c :: cs)

/-- Reads a number whose first digits tell its base. -/
def based (cs : List Char) : Nat × List Char :=
  match cs with
  | '0' :: x :: d :: rest =>
    if (x = 'x' || x = 'X') && (digit? 16 d).isSome then digits 16 0 (d :: rest)
    else digits 8 0 cs
  | '0' :: _ => digits 8 0 cs
  | _ => digits 10 0 cs

def isSpace (c : Char) : Bool := c = ' ' || ('\t' ≤ c && c ≤ '\r')

/-- The number that a text holds between blanks, with a sign or without one. -/
def ofText? (read : List Char → Nat × List Char) (text : String) : Option Int :=
  let cs := text.toList.dropWhile isSpace
  let (negative, cs) := (match cs with
    | '-' :: rest => (true, rest)
    | '+' :: rest => (false, rest)
    | cs => (false, cs))
  match cs with
  | c :: _ =>
    if c.isDigit then
      let (n, rest) := read cs
      if rest.all isSpace then some (if negative then -(n : Int) else n) else none
    else none
  | [] => none

def decimal? (text : String) : Option Int :=
  (ofText? (digits 10 0) text).filter fun n => clamped n = n

def held? (text : String) : Option Int :=
  if text.toList.all isSpace then some 0 else (ofText? based text).filter fun n => clamped n = n

inductive Token where
  | number (n : Int)
  | name (text : String)
  | sign (text : String)
  deriving DecidableEq, Repr

/-- The signs, of which a longer one comes before the start of it. -/
def signs : List String :=
  ["<<=", ">>=", "<<", ">>", "<=", ">=", "==", "!=", "&&", "||", "+=", "-=", "*=", "/=", "%=", "&=",
    "^=", "|=", "+", "-", "*", "/", "%", "<", ">", "=", "!", "~", "&", "^", "|", "?", ":", "(", ")"]

def tokens : Nat → List Char → Option (List Token)
  | 0, _ => none
  | _ + 1, [] => some []
  | n + 1, c :: cs =>
    if isSpace c then tokens n cs
    else if c.isDigit then
      let (m, rest) := based (c :: cs)
      (tokens n rest).map fun ts => .number (clamped m) :: ts
    else if isNameStart c then
      let (name, rest) := (c :: cs).span isNameRest
      (tokens n rest).map fun ts => .name (String.ofList name) :: ts
    else
      match signs.find? fun s => s.toList.isPrefixOf (c :: cs) with
      | some s => (tokens n ((c :: cs).drop s.toList.length)).map fun ts => .sign s :: ts
      | none => none

def strength? (sign : String) : Option Nat :=
  [["||"], ["&&"], ["|"], ["^"], ["&"], ["==", "!="], ["<", "<=", ">", ">="], ["<<", ">>"], ["+", "-"],
    ["*", "/", "%"]].findIdx? fun signs => sign ∈ signs

/-- The operation with which a sign assigns; an empty one only assigns. -/
def assigning? (sign : String) : Option String :=
  if sign ∈ ["=", "+=", "-=", "*=", "/=", "%=", "<<=", ">>=", "&=", "^=", "|="] then
    some (String.ofList sign.toList.dropLast)
  else none

mutual

/-- Reads a number, a name, or what is in brackets, with the signs before it. -/
def operand : Nat → List Token → Option (Sum × List Token)
  | 0, _ => none
  | room + 1, ts =>
    match ts with
    | .number n :: ts => some (.number n, ts)
    | .name x :: ts => some (.variable x, ts)
    | .sign "(" :: ts =>
      match whole room ts with
      | some (a, .sign ")" :: ts) => some (a, ts)
      | _ => none
    | .sign s :: ts =>
      if s ∈ ["+", "-", "!", "~"] then
        (operand room ts).map fun (a, ts) => (.unary (s.toList.headD '+') a, ts)
      else none
    | [] => none

/-- Goes on with the signs that bind at least as strongly as told. -/
def following (a : Sum) (least : Nat) : Nat → List Token → Option (Sum × List Token)
  | 0, _ => none
  | room + 1, ts =>
    match ts with
    | .sign s :: rest =>
      match strength? s with
      | some k =>
        if least ≤ k then do
          let (b, rest) ← operand room rest
          let (b, rest) ← following b (k + 1) room rest
          following (.binary s a b) least room rest
        else some (a, ts)
      | none => some (a, ts)
    | _ => some (a, ts)

def whole : Nat → List Token → Option (Sum × List Token)
  | 0, _ => none
  | room + 1, ts =>
    let assigned : Option (String × String × List Token) :=
      match ts with
      | .name x :: .sign s :: rest => (assigning? s).map fun op => (x, op, rest)
      | _ => none
    match assigned with
    | some (x, op, rest) => (whole room rest).map fun (a, rest) => (.assign op x a, rest)
    | none => do
      let (a, rest) ← operand room ts
      let (a, rest) ← following a 0 room rest
      match rest with
      | .sign "?" :: rest =>
        match ← whole room rest with
        | (b, .sign ":" :: rest) =>
          let (c, rest) ← whole room rest
          return (.choice a b c, rest)
        | _ => none
      | rest => return (a, rest)

end

def read? (text : List Char) : Option Sum := do
  let ts ← tokens (text.length + 1) text
  match ← whole (4 * ts.length + 4) ts with
  | (a, []) => return a
  | _ => none

def ofBool (b : Bool) : Int := if b then 1 else 0

/-- Two numbers put together; `none` for a division by zero. -/
def combined? (sign : String) (a b : Int) : Option Int :=
  let amount := (b % 64).toNat
  match sign with
  | "+" => some (kept (a + b))
  | "-" => some (kept (a - b))
  | "*" => some (kept (a * b))
  | "/" => if b = 0 then none else some (kept (a.tdiv b))
  | "%" => if b = 0 then none else some (kept (a.tmod b))
  | "<<" => some (kept (a * 2 ^ amount))
  | ">>" => some (a / 2 ^ amount)
  | "<" => some (ofBool (a < b))
  | "<=" => some (ofBool (a ≤ b))
  | ">" => some (ofBool (a > b))
  | ">=" => some (ofBool (a ≥ b))
  | "==" => some (ofBool (a = b))
  | "!=" => some (ofBool (a ≠ b))
  | "&" => some (BitVec.ofInt 64 a &&& BitVec.ofInt 64 b).toInt
  | "^" => some (BitVec.ofInt 64 a ^^^ BitVec.ofInt 64 b).toInt
  | "|" => some (BitVec.ofInt 64 a ||| BitVec.ofInt 64 b).toInt
  | _ => none

/-- The values that variables have been given, the last one first. -/
abbrev Given := List (String × Int)

def lookup (value : String → Option String) (name : String) : StateT Given Option Int := do
  match (← get).lookup name with
  | some n => return n
  | none => match held? ((value name).getD "") with | some n => return n | none => failure

/-- The number that a sum comes to where variables hold texts. -/
def evaluate (value : String → Option String) : Sum → StateT Given Option Int
  | .number n => return n
  | .variable x => lookup value x
  | .unary s a => do
    let n ← evaluate value a
    return (match s with | '-' => kept (-n) | '!' => ofBool (n = 0) | '~' => -n - 1 | _ => n)
  | .binary s a b => do
    let m ← evaluate value a
    if s = "&&" then
      if m = 0 then return 0 else return ofBool ((← evaluate value b) ≠ 0)
    else if s = "||" then
      if m ≠ 0 then return 1 else return ofBool ((← evaluate value b) ≠ 0)
    else
      let n ← evaluate value b
      match combined? s m n with | some r => return r | none => failure
  | .choice t a b => do if (← evaluate value t) ≠ 0 then evaluate value a else evaluate value b
  | .assign op x a => do
    let n ← evaluate value a
    let r ← (
      if op = "" then return n
      else do
        match combined? op (← lookup value x) n with
        | some r => return r
        | none => failure : StateT Given Option Int)
    modify fun given => (x, r) :: given
    return r

end Sum

end RobotConsole.Restart
