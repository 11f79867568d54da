import RobotConsole.Files
import RobotConsole.Restart.Sum

/-!
Conditions over texts, numbers and files, as the words of a `test` command.  A condition that is
malformed is neither true nor false.
-/

namespace RobotConsole.Restart.Condition

def fileSigns : List String :=
  ["-r", "-w", "-x", "-e", "-f", "-d", "-c", "-b", "-p", "-u", "-g", "-k", "-s", "-h", "-L", "-O", "-G",
    "-S"]

def unarySigns : List String := fileSigns ++ ["-t", "-z", "-n"]

def textSigns : List String := ["=", "!=", "<", ">"]

def numberSigns : List String := ["-eq", "-ne", "-gt", "-ge", "-lt", "-le"]

def binarySigns : List String := textSigns ++ numberSigns ++ ["-nt", "-ot", "-ef"]

/-- What a word is taken for, by the words after it. -/
inductive Role where
  | operand
  | unary
  | binary
  | not
  | and
  | or
  | opening
  | closing
  | finish
  deriving DecidableEq, Repr

def role : List String → Role
  | [] => .finish
  | w :: rest =>
    if w ∈ unarySigns then
      match rest with
      | [] => .operand
      | [_] => .unary
      | a :: _ => if a ∈ binarySigns then .operand else .unary
    else if w ∈ binarySigns then .binary
    else if w = "!" then .not
    else if w = "-a" then .and
    else if w = "-o" then .or
    else if w = "(" then if rest.isEmpty then .operand else .opening
    else if w = ")" then .closing
    else .operand

/-- Whether what a path leads to is as a sign asks. -/
def fileHolds (files : Files) (sign path : String) : Bool :=
  match files.kind? path with
  | none => false
  | some kind =>
    match sign with
    | "-f" => kind = .regular ∨ kind = .program
    | "-d" => kind = .directory
    | "-c" => kind = .device
    | "-x" => kind = .directory ∨ kind = .program
    | "-s" => kind ≠ .device ∧ (kind ≠ .regular ∨ files.content? path ≠ some "")
    | "-r" | "-w" | "-e" | "-O" | "-G" => true
    | _ => false

def unaryHolds (files : Files) (sign a : String) : Option Bool :=
  match sign with
  | "-z" => some (a = "")
  | "-n" => some (a ≠ "")
  | "-t" => (Sum.decimal? a).map fun _ => false
  | sign => some (fileHolds files sign a)

/-- Whether a comparison holds.  Of two files none is known to be older than the other. -/
def binaryHolds (files : Files) (sign a b : String) : Option Bool :=
  if sign ∈ numberSigns then do
    let m ← Sum.decimal? a
    let n ← Sum.decimal? b
    return (match sign with
      | "-eq" => m = n
      | "-ne" => m ≠ n
      | "-gt" => m > n
      | "-ge" => m ≥ n
      | "-lt" => m < n
      | _ => m ≤ n : Bool)
  else
    some (match sign with
      | "=" => a = b
      | "!=" => a ≠ b
      | "<" => a < b
      | ">" => a > b
      | "-ef" => (files.kind? a).isSome ∧ files.resolve a = files.resolve b
      | _ => false : Bool)

mutual

def anyOf (files : Files) : Nat → List String → Option (Bool × List String)
  | 0, _ => none
  | n + 1, ws => do
    let (a, rest) ← allOf files n ws
    match role rest, rest with
    | .or, _ :: rest =>
      let (b, rest) ← anyOf files n rest
      return (a || b, rest)
    | _, rest => return (a, rest)

def allOf (files : Files) : Nat → List String → Option (Bool × List String)
  | 0, _ => none
  | n + 1, ws => do
    let (a, rest) ← negated files n ws
    match role rest, rest with
    | .and, _ :: rest =>
      let (b, rest) ← allOf files n rest
      return (a && b, rest)
    | _, rest => return (a, rest)

def negated (files : Files) : Nat → List String → Option (Bool × List String)
  | 0, _ => none
  | n + 1, ws =>
    match role ws, ws with
    | .not, _ :: rest => do
      let (a, rest) ← negated files n rest
      return (!a, rest)
    | _, ws => single files n ws

/-- Reads one condition; a missing one does not hold. -/
def single (files : Files) : Nat → List String → Option (Bool × List String)
  | 0, _ => none
  | n + 1, ws =>
    match role ws, ws with
    | .finish, _ => some (false, [])
    | .opening, _ :: rest =>
      if role rest = .closing then some (false, rest.drop 1)
      else do
        let (a, rest) ← anyOf files n rest
        if role rest = .closing then return (a, rest.drop 1) else none
    | .unary, sign :: a :: rest => (unaryHolds files sign a).map fun b => (b, rest)
    | _, a :: sign :: rest =>
      if role (sign :: rest) = .binary then
        match rest with
        | b :: rest => (binaryHolds files sign a b).map fun h => (h, rest)
        | [] => none
      else some (a ≠ "", sign :: rest)
    | _, [a] => some (a ≠ "", [])
    | _, [] => some (false, [])

end

def whole (files : Files) (ws : List String) : Option Bool := do
  let (a, rest) ← anyOf files (4 * ws.length + 4) ws
  if rest.isEmpty then return a else none

/-- Whether words hold, where three of them with a sign in the middle are always a comparison. -/
def holds (files : Files) : Nat → List String → Option Bool
  | 0, _ => none
  | _ + 1, [] => some false
  | n + 1, ws =>
    match ws with
    | [a, sign, b] =>
      if sign ∈ binarySigns then binaryHolds files sign a b
      else shorter n ws
    | [_, _, _, _] => shorter n ws
    | ws => whole files ws
where
  shorter (n : Nat) (ws : List String) : Option Bool :=
    match ws with
    | "(" :: rest =>
      if rest.getLast? = some ")" then whole files rest.dropLast else whole files ws
    | "!" :: rest => (holds files n rest).map (!·)
    | ws => whole files ws

def check (files : Files) (ws : List String) : Option Bool := holds files (ws.length + 1) ws

end RobotConsole.Restart.Condition
