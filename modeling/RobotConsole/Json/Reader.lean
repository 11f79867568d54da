import RobotConsole.Json.Basic

/-!
Reading the text of a JSON document.  The reader checks the grammar alone: that numbers are in
range and strings are texts is left to those who read their values.
-/

namespace RobotConsole.Json

def isSpace (c : Char) : Bool := c = ' ' || c = '\n' || c = '\t' || c = '\r'

def skipSpace (cs : List Char) : List Char := cs.dropWhile isSpace

/-- What stands before the closing quote of a string, and what follows it. -/
def readString : List Char → Option (List Char × List Char)
  | [] => none
  | '"' :: rest => some ([], rest)
  | '\\' :: 'u' :: a :: b :: c :: d :: rest =>
    if (hex4? a b c d).isSome then
      (readString rest).map fun (raw, rest) => ('\\' :: 'u' :: a :: b :: c :: d :: raw, rest)
    else none
  | '\\' :: e :: rest =>
    if (escapes.lookup e).isSome then
      (readString rest).map fun (raw, rest) => ('\\' :: e :: raw, rest)
    else none
  | c :: rest =>
    if c.toNat < 0x20 then none else (readString rest).map fun (raw, rest) => (c :: raw, rest)

def readDigits (cs : List Char) : Option (List Char × List Char) :=
  let ds := cs.takeWhile Char.isDigit
  if ds = [] then none else some (ds, cs.dropWhile Char.isDigit)

def readFraction : List Char → Option (Option (List Char) × List Char)
  | '.' :: cs => (readDigits cs).map fun (ds, rest) => (some ds, rest)
  | cs => some (none, cs)

def readExponent (cs : List Char) : Option (Option (Bool × List Char) × List Char) :=
  match cs with
  | [] => some (none, [])
  | c :: rest =>
    if c = 'e' ∨ c = 'E' then
      let (negative, rest) := Numeral.splitSign rest
      (readDigits rest).map fun (ds, rest) => (some (negative, ds), rest)
    else some (none, cs)

/-- A number and what follows it; a zero is not followed by a digit. -/
def readNumber (cs : List Char) : Option (Numeral × List Char) :=
  let (negative, cs) := match cs with
    | '-' :: cs => (true, cs)
    | cs => (false, cs)
  match readDigits cs with
  | none => none
  | some (whole, cs) =>
    if whole.head? = some '0' ∧ whole ≠ ['0'] then none
    else
      match readFraction cs with
      | none => none
      | some (fraction, cs) =>
        (readExponent cs).map fun (exponent, cs) => (⟨negative, whole, fraction, exponent⟩, cs)

mutual

def readValue : Nat → List Char → Option (Json × List Char)
  | 0, _ => none
  | fuel + 1, cs =>
    match skipSpace cs with
    | '\x7b' :: cs =>
      match skipSpace cs with
      | '\x7d' :: cs => some (.object [], cs)
      | cs => (readMembers fuel cs).map fun (ms, rest) => (.object ms, rest)
    | '[' :: cs =>
      match skipSpace cs with
      | ']' :: cs => some (.list [], cs)
      | cs => (readItems fuel cs).map fun (js, rest) => (.list js, rest)
    | '"' :: cs => (readString cs).map fun (raw, rest) => (.string raw, rest)
    | 'n' :: 'u' :: 'l' :: 'l' :: cs => some (.null, cs)
    | 't' :: 'r' :: 'u' :: 'e' :: cs => some (.bool true, cs)
    | 'f' :: 'a' :: 'l' :: 's' :: 'e' :: cs => some (.bool false, cs)
    | cs => (readNumber cs).map fun (n, rest) => (.number n, rest)

/-- At least one item and the end of its list. -/
def readItems : Nat → List Char → Option (List Json × List Char)
  | 0, _ => none
  | fuel + 1, cs =>
    match readValue fuel cs with
    | none => none
    | some (j, cs) =>
      match skipSpace cs with
      | ',' :: cs => (readItems fuel cs).map fun (js, rest) => (j :: js, rest)
      | ']' :: cs => some ([j], cs)
      | _ => none

/-- At least one member and the end of its object. -/
def readMembers : Nat → List Char → Option (List (List Char × Json) × List Char)
  | 0, _ => none
  | fuel + 1, cs =>
    match skipSpace cs with
    | '"' :: cs =>
      match readString cs with
      | none => none
      | some (name, cs) =>
        match skipSpace cs with
        | ':' :: cs =>
          match readValue fuel cs with
          | none => none
          | some (j, cs) =>
            match skipSpace cs with
            | ',' :: cs => (readMembers fuel cs).map fun (ms, rest) => ((name, j) :: ms, rest)
            | '\x7d' :: cs => some ([(name, j)], cs)
            | _ => none
        | _ => none
    | _ => none

end

def ofChars? (cs : List Char) : Option Json :=
  match readValue (2 * cs.length + 1) cs with
  | some (j, rest) => if skipSpace rest = [] then some j else none
  | none => none

def ofOctets? (bytes : List UInt8) : Option Json := ofChars? (ofOctets bytes)

end RobotConsole.Json
