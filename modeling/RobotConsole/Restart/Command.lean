/-!
What a restart script says: words that are still to be expanded, and the commands made of them.
-/

namespace RobotConsole.Restart

inductive Connection where
  | input
  | output
  | append
  | both
  | duplicate
  | document (key : Nat)
  deriving DecidableEq, Repr

mutual

/-- A part of a word; what is quoted stays as it is when fields are made. -/
inductive Part where
  | text (cs : List Char) (quoted : Bool)
  | parameter (name : String) (use : Use) (quoted : Bool)
  | output (script : Command) (quoted : Bool)
  | sum (expression : List Part) (quoted : Bool)

/-- What is taken of a parameter.  `coversEmpty` tells whether an empty parameter counts as one that
is not set. -/
inductive Use where
  | value
  | length
  | orElse (coversEmpty : Bool) (word : List Part)
  | orAssign (coversEmpty : Bool) (word : List Part)
  | orFail (coversEmpty : Bool)
  | ifSet (coversEmpty : Bool) (word : List Part)
  | withoutStart (longest : Bool) (pattern : List Part)
  | withoutEnd (longest : Bool) (pattern : List Part)
  | unknown

inductive Redirection where
  | mk (descriptor : Nat) (connection : Connection) (target : List Part)

inductive Command where
  | nothing
  | simple (assignments : List (String × List Part)) (words : List (List Part))
      (redirections : List Redirection)
  | pipeline (commands : List Command)
  | negation (command : Command)
  | both (first second : Command)
  | either (first second : Command)
  | sequence (first second : Command)
  | background (command : Command)
  | subshell (command : Command)
  | redirected (command : Command) (redirections : List Redirection)
  | choice (test yes no : Command)
  | loop (untilHolds : Bool) (test body : Command)
  | each (name : String) (words : List (List Part)) (body : Command)
  | select (word : List Part) (branches : List (List (List Part) × Command))
  | function (name : String) (body : Command)

end

abbrev Word := List Part

/-- Commands that are part of the language: a function cannot have their names, and a fault in one of
them ends a script. -/
def special : List String :=
  [".", ":", "break", "continue", "eval", "exec", "exit", "export", "local", "readonly", "return",
    "set", "shift", "times", "trap", "unset"]

/-- The text of a word in which nothing is quoted or expanded. -/
def Word.bare? (w : Word) : Option String :=
  match w with
  | [.text cs false] => some (String.ofList cs)
  | _ => none

def isNameStart (c : Char) : Bool := c.isAlpha || c = '_'

def isNameRest (c : Char) : Bool := c.isAlphanum || c = '_'

def isName : List Char → Bool
  | [] => false
  | c :: cs => isNameStart c && cs.all isNameRest

def Word.assignment? : Word → Option (String × Word)
  | .text cs false :: rest =>
    match cs.span (· ≠ '=') with
    | (name, '=' :: value) =>
      if isName name then
        some (String.ofList name, if value.isEmpty then rest else .text value false :: rest)
      else none
    | _ => none
  | _ => none

end RobotConsole.Restart
