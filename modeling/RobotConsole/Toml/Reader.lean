import RobotConsole.Toml.Number
import RobotConsole.Toml.Quoted
import RobotConsole.Toml.Section

/-!
Reading the text of a TOML document as the list of its statements.  Each function takes what it
reads off the start of a text, or fails; of faults only that there is one is told.
-/

namespace RobotConsole.Toml

def skipBlanks (cs : List Char) : List Char := cs.dropWhile fun c => c = ' ' || c = '\t'

def skipLines (inComment : Bool) : List Char → List Char
  | [] => []
  | '\r' :: '\n' :: rest => skipLines false rest
  | c :: rest =>
    if c = '\n' then skipLines false rest
    else if inComment && isVisible c then skipLines true rest
    else if !inComment && (c = ' ' || c = '\t') then skipLines false rest
    else if !inComment && c = '#' then skipLines true rest
    else c :: rest

/-- What follows the end of the line, before which only blanks and a comment stand. -/
def readLineEnd (cs : List Char) : Option (List Char) :=
  let cs := match skipBlanks cs with
    | '#' :: rest => rest.dropWhile isVisible
    | cs => cs
  match cs with
  | [] => some []
  | '\n' :: rest => some rest
  | '\r' :: '\n' :: rest => some rest
  | _ => none

def readKeyPart (cs : List Char) : Option (String × List Char) :=
  match cs with
  | '"' :: rest => (readBasic rest).map fun (key, rest) => (String.ofList key, rest)
  | '\'' :: rest => (readLiteral rest).map fun (key, rest) => (String.ofList key, rest)
  | _ =>
    let key := cs.takeWhile isBare
    if key = [] then none else some (String.ofList key, cs.dropWhile isBare)

def readKeyParts : (limit : Nat) → List Char → Option (List String × List Char)
  | 0, _ => none
  | limit + 1, cs =>
    match readKeyPart (skipBlanks cs) with
    | none => none
    | some (part, rest) =>
      match skipBlanks rest with
      | '.' :: rest =>
        (readKeyParts limit rest).map fun (parts, rest) => (part :: parts, rest)
      | rest => some ([part], rest)

def readKey (cs : List Char) : Option (List String × List Char) := readKeyParts depthLimit cs

/-- A key and the equals sign after it. -/
def readAssigned (cs : List Char) : Option (List String × List Char) :=
  match readKey cs with
  | some (key, '=' :: rest) => some (key, skipBlanks rest)
  | _ => none

mutual

/-- A value and what follows it.  At most `depth` lists and tables lie around others in it. -/
def readValue (depth : Nat) : (fuel : Nat) → List Char → Option (Toml × List Char)
  | 0, _ => none
  | fuel + 1, cs =>
    match cs with
    | '"' :: _ => (readQuoted cs).map fun (t, rest) => (.text (String.ofList t), rest)
    | '\'' :: _ => (readQuoted cs).map fun (t, rest) => (.text (String.ofList t), rest)
    | 't' :: 'r' :: 'u' :: 'e' :: rest => some (.boolean true, rest)
    | 'f' :: 'a' :: 'l' :: 's' :: 'e' :: rest => some (.boolean false, rest)
    | '[' :: rest =>
      if depth = 0 then none
      else (readItems (depth - 1) fuel rest).map fun (items, rest) => (.list items, rest)
    | '\x7b' :: rest =>
      if depth = 0 then none
      else
        match skipBlanks rest with
        | '\x7d' :: rest => some (.table [], rest)
        | rest =>
          (readPairs (depth - 1) fuel [] rest).map fun (entries, rest) =>
            (.table (valuesOf entries), rest)
    | _ => readNumber cs

def readItems (depth : Nat) : (fuel : Nat) → List Char → Option (List Toml × List Char)
  | 0, _ => none
  | fuel + 1, cs =>
    match skipLines false cs with
    | ']' :: rest => some ([], rest)
    | cs =>
      match readValue depth fuel cs with
      | none => none
      | some (item, rest) =>
        match skipLines false rest with
        | ',' :: rest => (readItems depth fuel rest).map fun (items, rest) => (item :: items, rest)
        | ']' :: rest => some ([item], rest)
        | _ => none

/-- At least one more entry of a table on one line, and its end. -/
def readPairs (depth : Nat) : (fuel : Nat) → Entries → List Char → Option (Entries × List Char)
  | 0, _, _ => none
  | fuel + 1, es, cs =>
    match readAssigned cs with
    | none => none
    | some (path, rest) =>
      match readValue depth fuel rest with
      | none => none
      | some (v, rest) =>
        match es.assign path.dropLast (path.getLastD "") v with
        | none => none
        | some es =>
          match skipBlanks rest with
          | ',' :: rest => readPairs depth fuel es rest
          | '\x7d' :: rest => some (es, rest)
          | _ => none

end

inductive Statement where
  /-- The header of a table, or of the next one of a list. -/
  | header (path : List String) (key : String) (listed : Bool)
  | assignment (path : List String) (key : String) (value : Toml)

def splitKey (parts : List String) : List String × String := (parts.dropLast, parts.getLastD "")

/-- A statement without the end of its line. -/
def readStatement (fuel : Nat) (cs : List Char) : Option (Statement × List Char) :=
  match cs with
  | '[' :: '[' :: rest =>
    match readKey rest with
    | some (parts, ']' :: ']' :: rest) =>
      let (path, key) := splitKey parts
      some (.header path key true, rest)
    | _ => none
  | '[' :: rest =>
    match readKey rest with
    | some (parts, ']' :: rest) =>
      let (path, key) := splitKey parts
      some (.header path key false, rest)
    | _ => none
  | _ =>
    match readAssigned cs with
    | none => none
    | some (parts, rest) =>
      let (path, key) := splitKey parts
      (readValue depthLimit fuel rest).map fun (v, rest) => (.assignment path key v, rest)

/-- The statements of a document, at most `fuel` of them, each with the end of its line. -/
def readStatements : (fuel : Nat) → List Char → Option (List Statement)
  | 0, _ => none
  | fuel + 1, cs =>
    match skipLines false cs with
    | [] => some []
    | cs =>
      match readStatement (2 * cs.length + 1) cs with
      | none => none
      | some (s, rest) =>
        match readLineEnd rest with
        | none => none
        | some rest => (readStatements fuel rest).map (s :: ·)

end RobotConsole.Toml
