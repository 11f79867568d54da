import RobotConsole.Restart.Builtin.Options
import RobotConsole.Restart.Builtin.Signals

/-!
Starting programs, and shells among them.  A program is started in the place of a process; to run it
beside a script, another process is made first.
-/

namespace RobotConsole.Restart.Builtin

/-- What a script finds under a name of a program: a path leads there by itself, and a name from one
of the places that are searched. -/
def found? (s : State) (name : String) : Option FileKind :=
  if name.toList.contains '/' then s.files.kind? name
  else
    let places := ((s.value? "PATH").getD "").splitOn ":"
    if name ≠ "" ∧ places.any fun place => s.files.kind? (place ++ "/" ++ name) = some .program then
      some .program
    else none

/-- The places that are searched for programs unless others are named. -/
def ordinaryPath : String := "/usr/local/sbin:/usr/local/bin:/usr/sbin:/usr/bin:/sbin:/bin"

/-- A state for a script of its own, which knows only what is handed on. -/
def ownScript (s : State) (options : List Char) (name : String) (arguments : List String) : State :=
  { s with
    known := s.process
    bindings := withPath (s.bindings.filter fun v => v.2.exported)
    functions := []
    name
    arguments
    status := 0
    lastJob := none
    options
    traps := inherited s.traps
    trapped := none
    jobs := []
    loops := 0
    locals := [] }
where
  withPath (bindings : List (String × Variable)) : List (String × Variable) :=
    if (bindings.lookup "PATH").isSome then bindings
    else ("PATH", ⟨some ordinaryPath, false, false⟩) :: bindings

def shell (r : Runner) (words : List String) : Act Unit := do
  match options true ⟨[], false, false, []⟩ (words.length + 1) words with
  | none => Act.setStatus 2
  | some o =>
    let s ← get
    let run (text name : String) (arguments : List String) : Act Unit := do
      set (ownScript (← get) o.letters name arguments)
      ended (r.script false) (r.script false text)
    match o.hasScript, o.rest with
    | true, [] => Act.setStatus 2
    | true, [text] => run text "sh" []
    | true, text :: name :: arguments => run text name arguments
    | false, rest =>
      if 's' ∈ o.letters || rest.isEmpty then
        set { s with input := [] }
        run (String.ofList s.input) "sh" rest
      else
        match s.files.content? (rest.headD "") with
        | some text => run text (rest.headD "") (rest.drop 1)
        | none => Act.setStatus 2

/-- Gives the next words of `env` to bindings. -/
def environment (words : List String) : Act (List String) := do
  match words with
  | [] => return []
  | w :: ws =>
    if w = "-i" ∨ w = "-" then
      modify fun s => { s with bindings := [("PATH", ⟨some ordinaryPath, false, false⟩)] }
      environment ws
    else if w = "-u" then environment (ws.drop 1)
    else if w = "--" then environment ws
    else
      match w.toList.span (· ≠ '=') with
      | (name, '=' :: value) =>
        modify fun s => s.withVariable (String.ofList name) fun v =>
          { v with value := some (String.ofList value), exported := true }
        environment ws
      | _ => return w :: ws
termination_by words.length

/-- The seconds of a span of time, in tenths, as far as a program can be told to wait for them. -/
def tenths (word : String) : Nat :=
  let (whole, rest) := word.toList.span Char.isDigit
  let factor := match rest.getLast? with | some 'm' => 60 | some 'h' => 3600 | some 'd' => 86400 | _ => 1
  let part := match rest with | '.' :: c :: _ => (Sum.digit? 10 c).getD 0 | _ => 0
  ((Sum.digits 10 0 whole).1 * 10 + part) * factor

/-- Runs words as a program in the place of this process. -/
def launch (r : Runner) : Nat → List String → Act Unit
  | 0, _ => Act.setStatus 126
  | _ + 1, [] => Act.setStatus 0
  | n + 1, path :: words => do
    let s ← get
    let name := Program.lastName path
    let status : Option Nat := match found? s path with
      | some .program => none
      | some _ => some 126
      | none => some 127
    match status with
    | some code => Act.setStatus code
    | none =>
      match name with
      | "sh" | "dash" | "bash" => shell r words
      | "kill" => kill (words.map plainSignal)
      | "env" => launch r n (← environment words)
      | "nohup" | "setsid" => if words.isEmpty then Act.setStatus 125 else launch r n words
      | "nice" =>
        match words with
        | "-n" :: _ :: rest => launch r n rest
        | w :: rest => launch r n (if w.startsWith "-" then rest else w :: rest)
        | [] => Act.setStatus 0
      | "timeout" => timed n none words
      | name => Program.run name words
where
  /-- The name of a signal without the letters that all of them start with. -/
  plainSignal (word : String) : String :=
    if word.startsWith "-SIG" then "-" ++ (word.drop 4).toString
    else if word.startsWith "SIG" then (word.drop 3).toString
    else word
  /-- Runs words as a program that is ended after a time. -/
  timed (n : Nat) (signal : Option String) (words : List String) : Act Unit :=
    match words with
    | "-s" :: name :: rest => untilTime n (some name) rest
    | "-k" :: _ :: rest => untilTime n signal rest
    | rest => untilTime n signal rest
  untilTime (n : Nat) (signal : Option String) (words : List String) : Act Unit :=
    match words with
    | limit :: "sleep" :: spans =>
      let sum := (spans.map tenths).foldl (· + ·) 0
      if Program.isSpan limit then
        if tenths limit ≠ 0 ∧ tenths limit < sum then
          Act.setStatus (if signal.any fun s => Signal.ofText? 1 s = some 9 then 137 else 124)
        else Program.run "sleep" spans
      else Act.setStatus 125
    | limit :: command :: rest =>
      if Program.isSpan limit then launch r n (command :: rest) else Act.setStatus 125
    | _ => Act.setStatus 125

def replace (r : Runner) (words : List String) : Act Unit := do
  match words with
  | [] => Act.setStatus 0
  | name :: _ =>
    match found? (← get) name with
    | some .program =>
      modify fun s => { s with traps := inherited s.traps }
      launch r (words.length + 1) words
      throw .replaced
    | some _ =>
      Act.setStatus 126
      throw .finished
    | none =>
      Act.setStatus (if name = "" then 126 else 127)
      throw .finished

end RobotConsole.Restart.Builtin
