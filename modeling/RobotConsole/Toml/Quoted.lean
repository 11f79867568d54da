import RobotConsole.Text.Integer
import RobotConsole.Toml.Basic

/-!
Texts between quotes.  Double quotes allow escapes and single ones do not; three of either allow
line ends.  A written text takes the plainest of these forms that it fits into.
-/

namespace RobotConsole.Toml

def escapes : List (Char × Char) :=
  [('b', '\x08'), ('t', '\t'), ('n', '\n'), ('f', '\x0c'), ('r', '\r'), ('"', '"'), ('\\', '\\')]

def charOfHex? (digits : List Char) : Option Char :=
  match digits.mapM Text.hexDigit? with
  | some ds =>
    let n := ds.foldl (fun n d => 16 * n + d) 0
    if n.isValidChar then some (Char.ofNat n) else none
  | none => none

/-- A text after its opening double quote, and what follows it. -/
def readBasic : List Char → Option (List Char × List Char)
  | [] => none
  | '"' :: rest => some ([], rest)
  | '\\' :: 'u' :: a :: b :: c :: d :: rest =>
    match charOfHex? [a, b, c, d] with
    | some x => (readBasic rest).map fun (cs, rest) => (x :: cs, rest)
    | none => none
  | '\\' :: 'U' :: a :: b :: c :: d :: e :: f :: g :: h :: rest =>
    match charOfHex? [a, b, c, d, e, f, g, h] with
    | some x => (readBasic rest).map fun (cs, rest) => (x :: cs, rest)
    | none => none
  | '\\' :: e :: rest =>
    match escapes.lookup e with
    | some x => (readBasic rest).map fun (cs, rest) => (x :: cs, rest)
    | none => none
  | c :: rest =>
    if isVisible c then (readBasic rest).map fun (cs, rest) => (c :: cs, rest) else none

/-- A text after its opening single quote, and what follows it. -/
def readLiteral : List Char → Option (List Char × List Char)
  | [] => none
  | '\'' :: rest => some ([], rest)
  | c :: rest =>
    if isVisible c then (readLiteral rest).map fun (cs, rest) => (c :: cs, rest) else none

/-- The quotes right after three quotes that belong to the text before those, at most two. -/
def extraQuotes (quote : Char) (rest : List Char) : List Char × List Char :=
  let extra := (rest.take 2).takeWhile (· = quote)
  (extra, rest.drop extra.length)

/-- Only blanks stand before the end of this line, which comes. -/
def endsLine (cs : List Char) : Bool :=
  match cs.dropWhile fun c => c = ' ' || c = '\t' with
  | '\n' :: _ => true
  | '\r' :: '\n' :: _ => true
  | _ => false

/-- A text of several lines after its three double quotes.  While it `folds`, after a backslash at
the end of a line, blanks and line ends are left out. -/
def readLongBasic (folds : Bool) : List Char → Option (List Char × List Char)
  | [] => none
  | '"' :: '"' :: '"' :: rest => some (extraQuotes '"' rest)
  | '\r' :: '\n' :: rest =>
    if folds then readLongBasic true rest
    else (readLongBasic false rest).map fun (cs, rest) => ('\n' :: cs, rest)
  | '\\' :: 'u' :: a :: b :: c :: d :: rest =>
    match charOfHex? [a, b, c, d] with
    | some x => (readLongBasic false rest).map fun (cs, rest) => (x :: cs, rest)
    | none => none
  | '\\' :: 'U' :: a :: b :: c :: d :: e :: f :: g :: h :: rest =>
    match charOfHex? [a, b, c, d, e, f, g, h] with
    | some x => (readLongBasic false rest).map fun (cs, rest) => (x :: cs, rest)
    | none => none
  | '\\' :: e :: rest =>
    if endsLine (e :: rest) then readLongBasic true (e :: rest)
    else
      match escapes.lookup e with
      | some x => (readLongBasic false rest).map fun (cs, rest) => (x :: cs, rest)
      | none => none
  | c :: rest =>
    if folds && (c = ' ' || c = '\t' || c = '\n') then readLongBasic true rest
    else if isVisible c || c = '\n' then
      (readLongBasic false rest).map fun (cs, rest) => (c :: cs, rest)
    else none

def readLongLiteral : List Char → Option (List Char × List Char)
  | [] => none
  | '\'' :: '\'' :: '\'' :: rest => some (extraQuotes '\'' rest)
  | '\r' :: '\n' :: rest => (readLongLiteral rest).map fun (cs, rest) => ('\n' :: cs, rest)
  | c :: rest =>
    if isVisible c || c = '\n' then
      (readLongLiteral rest).map fun (cs, rest) => (c :: cs, rest)
    else none

def dropLineEnd : List Char → List Char
  | '\n' :: rest => rest
  | '\r' :: '\n' :: rest => rest
  | cs => cs

def readQuoted : List Char → Option (List Char × List Char)
  | '"' :: '"' :: '"' :: rest => readLongBasic false (dropLineEnd rest)
  | '"' :: rest => readBasic rest
  | '\'' :: '\'' :: '\'' :: rest => readLongLiteral (dropLineEnd rest)
  | '\'' :: rest => readLiteral rest
  | _ => none

/-! Writing -/

/-- The length of the longest run of a character, where the run at the start goes on from `run`. -/
def longestRun (c : Char) (run : Nat) : List Char → Nat
  | [] => run
  | d :: rest => if d = c then longestRun c (run + 1) rest else max run (longestRun c 0 rest)

def hex4 (n : Nat) : List Char :=
  let ds := (Nat.toDigits 16 n).map Char.toUpper
  List.replicate (4 - ds.length) '0' ++ ds

/-- A text between double quotes, `quotes` of which came right before.  In a text of several lines
line ends stand for themselves, and so do quotes but each third one in a row. -/
def escaped (long : Bool) (quotes : Nat) : List Char → List Char
  | [] => []
  | c :: rest =>
    if c = '"' then
      if long ∧ quotes < 2 then c :: escaped long (quotes + 1) rest
      else '\\' :: c :: escaped long 0 rest
    else if long ∧ c = '\n' then c :: escaped long 0 rest
    else
      match escapes.find? fun (_, x) => x = c with
      | some (e, _) => '\\' :: e :: escaped long 0 rest
      | none =>
        if isVisible c then c :: escaped long 0 rest
        else '\\' :: 'u' :: hex4 c.toNat ++ escaped long 0 rest

def basic (cs : List Char) : List Char := '"' :: escaped false 0 cs ++ ['"']

def literal (cs : List Char) : List Char := '\'' :: cs ++ ['\'']

/-- What comes before a text of several lines: its quotes, and a line end if it has any itself. -/
def opening (quotes cs : List Char) : List Char := quotes ++ if '\n' ∈ cs then ['\n'] else []

def longBasic (cs : List Char) : List Char :=
  let quotes := ['"', '"', '"']
  opening quotes cs ++ escaped true 0 cs ++ quotes

def longLiteral (cs : List Char) : List Char :=
  let quotes := ['\'', '\'', '\'']
  opening quotes cs ++ cs ++ quotes

/-- A text between the plainest quotes it fits into. -/
def quoted (cs : List Char) : List Char :=
  let visible := cs.all fun c => isVisible c || c = '\n'
  if visible ∧ '\n' ∉ cs ∧ '\\' ∉ cs ∧ '"' ∉ cs then basic cs
  else if visible ∧ '\n' ∉ cs ∧ '\'' ∉ cs then literal cs
  else if visible ∧ '\\' ∉ cs ∧ longestRun '"' 0 cs ≤ 2 then longBasic cs
  else if visible ∧ longestRun '\'' 0 cs ≤ 2 then longLiteral cs
  else if '\n' ∈ cs then longBasic cs
  else basic cs

def keyChars (cs : List Char) : List Char :=
  let visible := cs.all isVisible
  if cs ≠ [] ∧ cs.all isBare then cs
  else if visible ∧ '\\' ∉ cs ∧ '"' ∉ cs then basic cs
  else if visible ∧ '\'' ∉ cs then literal cs
  else basic cs

end RobotConsole.Toml
