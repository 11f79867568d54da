import RobotConsole.Restart.Program

/-!
Commands that change variables.  Each word of theirs is a name, or a name with the value that it is
given.
-/

namespace RobotConsole.Restart.Builtin

/-- The name in a word, and the value that it is given. -/
def binding (word : String) : Act (String × Option String) := do
  let (name, rest) := word.toList.span (· ≠ '=')
  if !isName name then Act.fault
  return (String.ofList name, match rest with | [] => none | _ :: value => some (String.ofList value))

/-- Marks variables, and gives values to those that come with one. -/
def markAll (change : Variable → Variable) : List String → Act Unit
  | [] => Act.setStatus 0
  | w :: ws => do
    let (name, value) ← binding w
    match value with
    | some v => Act.assign name v
    | none => pure ()
    modify fun s => s.withVariable name change
    markAll change ws

def unsetAll (functions : Bool) : List String → Act Unit
  | [] => Act.setStatus 0
  | name :: ws => do
    if functions then modify fun s => { s with functions := s.functions.filter fun f => f.1 ≠ name }
    else
      if !isName name.toList || (← get).isFixed name then Act.fault
      modify fun s => { s with bindings := s.bindings.filter fun v => v.1 ≠ name }
    unsetAll functions ws

def keepLocal : List String → Act Unit
  | [] => Act.setStatus 0
  | w :: ws => do
    let (name, value) ← binding w
    let s ← get
    match s.locals with
    | [] => Act.fault
    | inner :: outer =>
      if inner.all fun e => e.1 ≠ name then
        set { s with locals := ((name, s.bindings.lookup name) :: inner) :: outer }
    match value with
    | some v => Act.assign name v
    | none => pure ()
    keepLocal ws

/-- The line that comes in next, and whether its end did. -/
def nextLine (raw : Bool) (acc : List Char) : List Char → List Char × Bool × List Char
  | [] => (acc.reverse, false, [])
  | '\n' :: rest => (acc.reverse, true, rest)
  | '\\' :: '\n' :: rest =>
    if raw then (('\\' :: acc).reverse, true, rest) else nextLine raw acc rest
  | '\\' :: c :: rest =>
    if raw then nextLine raw (c :: '\\' :: acc) rest else nextLine raw (c :: acc) rest
  | c :: rest => nextLine raw (c :: acc) rest

/-- Gives the words of a line to names; the last one has all that is left. -/
def share (seps : List Char) (cs : List Char) : List String → Act Unit
  | [] => return ()
  | name :: names => do
    if !isName name.toList then Act.fault
    let isBlank (c : Char) : Bool := seps.contains c && (c = ' ' || c = '\t' || c = '\n')
    let cs := cs.dropWhile isBlank
    match names with
    | [] => Act.assign name (String.ofList (cs.reverse.dropWhile isBlank).reverse)
    | names =>
      let (word, rest) := cs.span fun c => !seps.contains c
      Act.assign name (String.ofList word)
      let rest := (match rest.dropWhile isBlank with
        | c :: after => if seps.contains c then after else c :: after
        | [] => [])
      share seps rest names

def read (words : List String) : Act Unit := do
  let (letters, names) := Program.optionsAndRest words
  if names.isEmpty || !letters.all fun c => c = 'r' then Act.fault
  let raw := letters.contains 'r'
  let s ← get
  let (line, whole, rest) := nextLine raw [] s.input
  set { s with input := rest }
  share (Expansion.separators s) line names
  Act.ofBool whole

end RobotConsole.Restart.Builtin
