import RobotConsole.Restart.Builtin.Launch
import RobotConsole.Restart.Builtin.Variables

/-!
The commands that a shell brings along.  A fault in a command of the language ends a script; one in
another command only makes that command fail.
-/

namespace RobotConsole.Restart.Builtin

/-- The commands beside those of the language. -/
def regular : List String :=
  ["true", "false", "cd", "chdir", "command", "echo", "printf", "test", "[", "kill", "wait", "read",
    "pwd", "umask", "ulimit", "type", "hash", "jobs", "fg", "bg", "getopts", "alias", "unalias"]

def setOptions (words : List String) : Act Unit := do
  let s ← get
  let o ← Act.orFault (options false ⟨s.options, false, false, []⟩ (words.length + 1) words)
  set { s with
    options := o.letters
    arguments := if o.ended || !o.rest.isEmpty then o.rest else s.arguments
    status := 0 }

def shift (words : List String) : Act Unit := do
  let n ← (match words with | [] => pure 1 | w :: _ => number w : Act Nat)
  let s ← get
  if n > s.arguments.length then Act.fault
  set { s with arguments := s.arguments.drop n, status := 0 }

def changeDirectory (words : List String) : Act Unit := do
  let s ← get
  let (letters, operands) := Program.optionsAndRest words
  if !letters.all fun c => c = 'L' || c = 'P' then Act.fault
  let path := (match operands with
    | [] => s.value? "HOME"
    | "-" :: _ => s.value? "OLDPWD"
    | path :: _ => some path).getD ""
  if path = "" then Act.setStatus 0
  else
    let files ← Act.orFault (s.files.enter? path)
    set { s with files }
    Act.assign "OLDPWD" (Files.text s.files.place)
    Act.assign "PWD" (Files.text files.place)
    Act.setStatus 0

def isKnown (s : State) (name : String) : Bool :=
  name ∈ special || name ∈ regular || (s.functions.lookup name).isSome ||
    found? s name = some .program

def describe (words : List String) : Act Unit := do
  let s ← get
  for w in words do if isKnown s w then Act.write (w ++ "\n")
  Act.setStatus (if words.all (isKnown s) then 0 else 127)

def mask (words : List String) : Act Unit := do
  match words with
  | [] => Act.write "0022\n"
  | w :: _ =>
    if w.toList.any Char.isDigit && !w.toList.all fun c => (Sum.digit? 8 c).isSome then Act.fault
  Act.setStatus 0

def includeFile (r : Runner) (words : List String) : Act Unit := do
  match words with
  | [] => Act.setStatus 0
  | path :: _ =>
    if !path.toList.contains '/' then Act.fault
    let text ← Act.orFault ((← get).files.content? path)
    match ← Act.attempt (r.script false text) with
    | .error .returns => return ()
    | .error e => throw e
    | .ok _ => return ()

def run (r : Runner) (tested : Bool) (name : String) (words : List String) : Act Unit := do
  match name with
  | ":" | "times" | "ulimit" | "jobs" => Act.setStatus 0
  | "." => includeFile r words
  | "break" => leaveLoops .leavesLoops words
  | "continue" => leaveLoops .nextRound words
  | "eval" => r.script tested (" ".intercalate words)
  | "exec" => replace r (match words with | "--" :: ws => ws | ws => ws)
  | "exit" =>
    Act.setStatus (← leavingStatus words)
    throw .finished
  | "return" =>
    Act.setStatus (← leavingStatus words)
    throw .returns
  | "export" => markAll (fun v => { v with exported := true }) (marked words)
  | "readonly" => markAll (fun v => { v with fixed := true }) (marked words)
  | "local" => if (← get).locals.isEmpty then Act.fault else keepLocal words
  | "set" => setOptions words
  | "shift" => shift words
  | "trap" => trap words
  | "unset" =>
    let (letters, names) := Program.optionsAndRest words
    if letters.all fun c => c = 'f' || c = 'v' then unsetAll (letters.contains 'f') names else Act.fault
  | "cd" | "chdir" => changeDirectory words
  | "kill" => kill words
  | "wait" => wait r words
  | "read" => read words
  | "umask" => mask words
  | "type" => describe words
  | "command" =>
    let (letters, names) := Program.optionsAndRest words
    if letters.all fun c => c = 'v' || c = 'V' || c = 'p' then describe names else Act.fault
  | "hash" =>
    let s ← get
    Act.ofBool (words.all fun w => w = "-r" || isKnown s w)
  | "fg" | "bg" => Act.fault
  | "getopts" => Act.setStatus 1
  | "alias" => Act.ofBool (words.all fun w => w.toList.contains '=')
  | "unalias" => Act.ofBool (words = [] ∨ words = ["-a"])
  | "[" =>
    -- Only the start of the last word is looked at.
    if words.getLast?.any fun w => w.startsWith "]" then Program.run "test" words.dropLast else Act.fault
  | "printf" => if words.isEmpty then Act.fault else Program.run name words
  | name => Program.run name words
where
  marked (words : List String) : List String :=
    match words with
    | "-p" :: ws => ws
    | "--" :: ws => ws
    | ws => ws

end RobotConsole.Restart.Builtin
