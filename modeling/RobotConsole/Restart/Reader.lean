import RobotConsole.Restart.Command

/-!
Reading the words and signs of a script.  A word may hold commands, so its reader is given the
reader of commands.  Every loop is bounded by the characters that are left when it starts.
-/

namespace RobotConsole.Restart

inductive Token where
  | word (w : Word)
  | redirect (descriptor : Nat) (connection : Connection)
  | document (descriptor : Nat) (stripsTabs : Bool)
  | newline
  | next
  | nextBranch
  | background
  | both
  | either
  | pipe
  | opening
  | closing
  | finish

/-- A text given within the script, of which only the line that ends it is known yet. -/
structure Awaited where
  key : Nat
  last : List Char
  stripsTabs : Bool
  quoted : Bool

structure Reader where
  rest : List Char
  /-- A token that was read and put back. -/
  held : Option Token := none
  awaited : List Awaited := []
  documents : List (Nat × Word) := []
  nextKey : Nat := 0

/-- Reading that fails where a script is malformed. -/
abbrev Reading := StateT Reader Option

namespace Reader

def blank (c : Char) : Bool := c = ' ' || c = '\t'

def endsWord (c : Char) : Bool := blank c || "\n;&|<>()".toList.contains c

def isSign (c : Char) : Bool := "!#$*-?@".toList.contains c

def peek? : Reading (Option Char) := do return (← get).rest.head?

def skip (n : Nat) : Reading Unit := modify fun r => { r with rest := r.rest.drop n }

/-- More than the tokens that are left, with one that was put back and the one for the end. -/
def left : Reading Nat := do return (← get).rest.length + 3

def takes (text : String) : Reading Bool := do
  if text.toList.isPrefixOf (← get).rest then
    skip text.toList.length
    return true
  else return false

def takeWhile (p : Char → Bool) : Reading (List Char) :=
  modifyGet fun r => (r.rest.takeWhile p, { r with rest := r.rest.dropWhile p })

def one : Reading Char := do
  match (← get).rest with
  | [] => failure
  | c :: rest =>
    modify fun r => { r with rest }
    return c

inductive Ending where
  | word
  | quote
  | brace
  | document
  | sum (depth : Nat)

/-- Adds text to parts read backwards, joining it with text of its kind. -/
def addText (cs : List Char) (quoted : Bool) : List Part → List Part
  | .text before q :: parts =>
    if q = quoted then .text (before ++ cs) q :: parts
    else .text cs quoted :: .text before q :: parts
  | parts => .text cs quoted :: parts

/-- The text of an old command substitution up to its end, where a backslash is kept unless it
quotes. -/
def oldScript (quoted : Bool) (acc : List Char) : List Char → Option (List Char × List Char)
  | [] => none
  | '`' :: rest => some (acc.reverse, rest)
  | '\\' :: c :: rest =>
    if c = '`' ∨ c = '\\' ∨ c = '$' ∨ (quoted ∧ c = '"') then oldScript quoted (c :: acc) rest
    else oldScript quoted (c :: '\\' :: acc) rest
  | c :: rest => oldScript quoted (c :: acc) rest

def oldCommand (list : Reading Command) (quoted : Bool) : Reading Command := do
  let r ← get
  let (script, rest) ← oldScript quoted [] r.rest
  let (command, inner) ← list.run { r with rest := script, held := none, awaited := [] }
  set { r with rest, documents := inner.documents, nextKey := inner.nextKey }
  return command

mutual

def parts (list : Reading Command) (room : Nat) (ending : Ending) (quoted : Bool) (acc : List Part) :
    Reading Word := do
  match room with
  | 0 => failure
  | room + 1 =>
    match (← get).rest, ending with
    | [], .word => return acc.reverse
    | [], .document => return acc.reverse
    | [], _ => failure
    | '\\' :: '\n' :: _, _ =>
      skip 2
      parts list room ending quoted acc
    | '\\' :: c :: _, _ =>
      let special := c = '$' || c = '`' || c = '\\' ||
        (c = '"' && (match ending with | .document => false | _ => true)) ||
        (c = '}' && (match ending with | .brace => true | _ => false))
      skip 2
      parts list room ending quoted
        (addText (if quoted && !special then ['\\', c] else [c]) true acc)
    | '}' :: _, .brace =>
      skip 1
      return acc.reverse
    | '"' :: _, .quote =>
      skip 1
      return acc.reverse
    | ')' :: ')' :: _, .sum 0 =>
      skip 2
      return acc.reverse
    | ')' :: _, .sum 0 => failure
    | ')' :: _, .sum (depth + 1) =>
      skip 1
      parts list room (.sum depth) quoted (addText [')'] true acc)
    | '(' :: _, .sum depth =>
      skip 1
      parts list room (.sum (depth + 1)) quoted (addText ['('] true acc)
    | '$' :: _, _ =>
      skip 1
      let part ← dollar list room quoted
      match part with
      | .text cs q => parts list room ending quoted (addText cs q acc)
      | part => parts list room ending quoted (part :: acc)
    | '`' :: _, _ =>
      skip 1
      let command ← oldCommand list quoted
      parts list room ending quoted (.output command quoted :: acc)
    | '"' :: _, .document | '"' :: _, .sum _ =>
      skip 1
      parts list room ending quoted (addText ['"'] quoted acc)
    | '"' :: _, _ =>
      skip 1
      let inner ← parts list room .quote true []
      parts list room ending quoted (if inner.isEmpty then .text [] true :: acc else inner.reverse ++ acc)
    | '\'' :: _, _ =>
      skip 1
      if quoted then parts list room ending quoted (addText ['\''] true acc)
      else
        let cs ← takeWhile (· ≠ '\'')
        let _ ← one
        parts list room ending quoted (addText cs true acc)
    | c :: _, .word =>
      if endsWord c then return acc.reverse
      else
        skip 1
        parts list room ending quoted (addText [c] quoted acc)
    | c :: _, _ =>
      skip 1
      parts list room ending quoted (addText [c] quoted acc)

def dollar (list : Reading Command) (room : Nat) (quoted : Bool) : Reading Part := do
  match room with
  | 0 => failure
  | room + 1 =>
    match (← get).rest with
    | '(' :: '(' :: _ =>
      skip 2
      return .sum (← parts list room (.sum 0) true []) quoted
    | '(' :: _ =>
      skip 1
      let held := (← get).held
      let command ← list
      match (← get).held with
      | some .closing =>
        modify fun r => { r with held }
        return .output command quoted
      | _ => failure
    | '{' :: _ =>
      skip 1
      braced list room quoted
    | c :: _ =>
      if isNameStart c then
        return .parameter (String.ofList (← takeWhile isNameRest)) .value quoted
      else if c.isDigit || isSign c then
        skip 1
        return .parameter (String.singleton c) .value quoted
      else return .text ['$'] quoted
    | [] => return .text ['$'] quoted

def braced (list : Reading Command) (room : Nat) (quoted : Bool) : Reading Part := do
  match room with
  | 0 => failure
  | room + 1 =>
    let measured ← (do
      match (← get).rest with
      | '#' :: c :: _ =>
        if isNameRest c || (isSign c && c ≠ '#' && c ≠ '-' && c ≠ '?') then
          skip 1
          return true
        else return false
      | _ => return false : Reading Bool)
    let name ← (do
      match (← get).rest with
      | c :: _ =>
        if isNameStart c then takeWhile isNameRest
        else if c.isDigit then takeWhile Char.isDigit
        else if isSign c then
          skip 1
          return [c]
        else return []
      | [] => failure : Reading (List Char))
    let name := String.ofList name
    let covers ← takes ":"
    let c ← one
    if c = '}' then
      return .parameter name
        (if covers || name.isEmpty then .unknown else if measured then .length else .value) quoted
    else
      let word (q : Bool) : Reading Word := parts list room .brace q []
      let use ← (
        if c = '-' then do return .orElse covers (← word quoted)
        else if c = '=' then do return .orAssign covers (← word quoted)
        else if c = '?' then do
          let _ ← word quoted
          return .orFail covers
        else if c = '+' then do return .ifSet covers (← word quoted)
        else if c = '#' && !covers then do
          let longest ← takes "#"
          return .withoutStart longest (← word false)
        else if c = '%' && !covers then do
          let longest ← takes "%"
          return .withoutEnd longest (← word false)
        else do
          let _ ← word quoted
          return .unknown : Reading Use)
      return .parameter name (if measured || name.isEmpty then .unknown else use) quoted

end

/-- The lines of a given text, up to the one that ends it, and what follows. -/
def lines (a : Awaited) (acc : List Char) : Nat → List Char → List Char × List Char
  | 0, cs => (acc, cs)
  | n + 1, cs =>
    if cs.isEmpty then (acc, [])
    else
      let (line, rest) := cs.span (· ≠ '\n')
      let line := if a.stripsTabs then line.dropWhile (· = '\t') else line
      if line = a.last then (acc, rest.drop 1)
      else lines a (acc ++ line ++ rest.take 1) n (rest.drop 1)

def document (list : Reading Command) (a : Awaited) : Reading Unit := do
  let r ← get
  let (text, rest) := lines a [] (r.rest.length + 1) r.rest
  let word ←
    if a.quoted then pure [.text text true]
    else do
      let (word, inner) ←
        (parts list (text.length + 1) .document true []).run { r with rest := text, held := none, awaited := [] }
      modify fun r => { r with nextKey := inner.nextKey, documents := inner.documents }
      pure word
  modify fun r => { r with rest, documents := (a.key, word) :: r.documents }

def awaitedDocuments (list : Reading Command) : Reading Unit := do
  let awaited := (← get).awaited
  modify fun r => { r with awaited := [] }
  for a in awaited do document list a

/-- Passes over blanks, continued lines and a comment. -/
def skipBlanks (inComment : Bool) : List Char → List Char
  | '\\' :: '\n' :: cs => if inComment then '\n' :: cs else skipBlanks false cs
  | c :: cs =>
    if inComment then if c = '\n' then c :: cs else skipBlanks true cs
    else if blank c then skipBlanks false cs
    else if c = '#' then skipBlanks true cs
    else c :: cs
  | [] => []

/-- Reads a sign that sends a descriptor elsewhere. -/
def redirect? (given : Option Nat) : Reading (Option Token) := do
  let here (n : Nat) (c : Connection) : Option Token := some (.redirect (given.getD n) c)
  if ← takes "<<-" then return some (.document (given.getD 0) true)
  else if ← takes "<<" then return some (.document (given.getD 0) false)
  else if ← takes "<&" then return here 0 .duplicate
  else if ← takes "<>" then return here 0 .both
  else if ← takes "<" then return here 0 .input
  else if ← takes ">>" then return here 1 .append
  else if ← takes ">&" then return here 1 .duplicate
  else if ← takes ">|" then return here 1 .output
  else if ← takes ">" then return here 1 .output
  else return none

/-- The signs that stand for themselves; a longer one comes before the start of it. -/
def signs : List (String × Token) :=
  [(";;", .nextBranch), (";", .next), ("&&", .both), ("&", .background), ("||", .either),
    ("|", .pipe), ("(", .opening), (")", .closing)]

def sign? : List (String × Token) → Reading (Option Token)
  | [] => return none
  | (text, token) :: rest => do if ← takes text then return some token else sign? rest

def token (list : Reading Command) : Reading Token := do
  match (← get).held with
  | some t =>
    modify fun r => { r with held := none }
    return t
  | none =>
    modify fun r => { r with rest := skipBlanks false r.rest }
    match (← get).rest with
    | [] =>
      awaitedDocuments list
      return .finish
    | '\n' :: _ =>
      skip 1
      awaitedDocuments list
      return .newline
    | c :: d :: _ =>
      if c.isDigit && (d = '<' || d = '>') then
        skip 1
        match ← redirect? (some (c.toNat - '0'.toNat)) with
        | some t => return t
        | none => failure
      else plain
    | _ => plain
where
  plain : Reading Token := do
    match ← redirect? none with
    | some t => return t
    | none =>
      match ← sign? signs with
      | some t => return t
      | none => return .word (← parts list (3 * (← left)) .word false [])

def putBack (t : Token) : Reading Unit := modify fun r => { r with held := some t }

end Reader

end RobotConsole.Restart
