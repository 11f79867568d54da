import RobotConsole.Restart.Command
import RobotConsole.Restart.ExitStatus
import RobotConsole.Files

/-!
What a running script knows and changes, and the ways in which it stops going on.  A script and the
commands that it runs beside itself are numbered, so that a signal reaches the one it is sent to.
-/

namespace RobotConsole.Restart

structure Variable where
  value : Option String
  exported : Bool := false
  fixed : Bool := false
  deriving DecidableEq, Repr

/-- What a script does on signals, by their numbers; 0 is its end.  An empty text ignores one. -/
abbrev Traps := List (Nat × String)

inductive Sink where
  | outside
  | nowhere
  | captured
  | file (path : String)
  deriving DecidableEq, Repr

/-- A command that runs beside the script.  It is run when the script waits for it. -/
structure Job where
  process : Nat
  /-- How it ended, or what it is to do. -/
  state : Nat ⊕ Command

structure State where
  process : Nat := 1000
  /-- The number that the script knows itself by. -/
  known : Nat := 1000
  parent : Nat := 999
  /-- The processes that wait for this one, with what they do on signals. -/
  lineage : List (Nat × Traps) := []
  nextProcess : Nat := 1001
  bindings : List (String × Variable) := []
  functions : List (String × Command) := []
  name : String := "sh"
  arguments : List String := []
  status : Nat := 0
  /-- The status of the last command that was run within a word. -/
  innerStatus : Nat := 0
  lastJob : Option Nat := none
  options : List Char := []
  traps : Traps := []
  /-- The status before a trap, while one is run. -/
  trapped : Option Nat := none
  pending : List (Nat × Nat) := []
  documents : List (Nat × Word) := []
  nextKey : Nat := 0
  jobs : List Job := []
  input : List Char := []
  sink : Sink := .outside
  captured : String := ""
  descriptors : List Nat := [0, 1, 2]
  files : Files := {}
  loops : Nat := 0
  /-- What the names that functions keep to themselves stood for, the innermost function first. -/
  locals : List (List (String × Option Variable)) := []

inductive Stop where
  /-- It ends with the status it has. -/
  | finished
  /-- It ends because of a fault, unless the command at fault is one that may fail. -/
  | fault
  /-- Another program has taken its place and ended. -/
  | replaced
  | killed (process signal : Nat)
  | leavesLoops (n : Nat)
  | nextRound (n : Nat)
  | returns
  deriving DecidableEq, Repr

abbrev Act := ExceptT Stop (StateM State)

namespace Act

def setStatus (n : Nat) : Act Unit := modify fun s => { s with status := n }

def ofBool (b : Bool) : Act Unit := setStatus (if b then 0 else 1)

def fault {α : Type} : Act α := do
  setStatus 2
  throw .fault

def orFault {α : Type} : Option α → Act α
  | some a => return a
  | none => fault

def write (text : String) : Act Unit :=
  modify fun s =>
    match s.sink with
    | .captured => { s with captured := s.captured ++ text }
    | .file path => { s with files := s.files.write path ((s.files.content? path).getD "" ++ text) }
    | _ => s

end Act

namespace State

def value? (s : State) (name : String) : Option String :=
  (s.bindings.lookup name).bind Variable.value

/-- What a new list holds where a name has a value. -/
def put {α : Type} (name : String) (a : α) (entries : List (String × α)) : List (String × α) :=
  (name, a) :: entries.filter fun e => e.1 ≠ name

def withVariable (s : State) (name : String) (change : Variable → Variable) : State :=
  let v := (s.bindings.lookup name).getD ⟨none, 'a' ∈ s.options, false⟩
  { s with bindings := put name (change v) s.bindings }

def isFixed (s : State) (name : String) : Bool := (s.bindings.lookup name).any Variable.fixed

end State

namespace Act

/-- Gives a variable a value; one that is fixed cannot have another. -/
def assign (name value : String) : Act Unit := do
  if (← get).isFixed name then fault
  modify fun s => s.withVariable name fun v => { v with value := some value }

/-- Runs something and goes on with its result even if it stops. -/
def attempt {α : Type} (act : Act α) : Act (Except Stop α) := fun s =>
  let (r, t) := act.run s
  (.ok r, t)

end Act

/-! ### Signals -/

/-- Signals that change nothing unless they are trapped. -/
def harmless : List Nat := [17, 18, 23, 28]

def untrappable : List Nat := [9, 19]

/-- What a process does on a signal, apart from ending. -/
def reaction (traps : Traps) (signal : Nat) : Option String :=
  if signal ∈ untrappable then none else traps.lookup signal

/-- A signal for a process that runs: it is ignored, or kept for its trap, or it ends the process.
The signal 0 only asks whether there is the process. -/
def deliver (process signal : Nat) (traps : Traps) : Act Unit := do
  if signal = 0 then return ()
  else
    match reaction traps signal with
    | some "" => return ()
    | some _ => modify fun s => { s with pending := s.pending ++ [(process, signal)] }
    | none => if signal ∈ harmless then return () else throw (.killed process signal)

def send (process signal : Nat) : Act Bool := do
  let s ← get
  if process = s.process then
    deliver process signal s.traps
    return true
  else
    match s.lineage.lookup process with
    | some traps =>
      deliver process signal traps
      return true
    | none =>
      match s.jobs.find? fun j => j.process = process with
      | some ⟨_, .inr _⟩ =>
        if signal ≠ 0 ∧ signal ∉ harmless then
          modify fun s =>
            { s with jobs := s.jobs.map fun j =>
                if j.process = process then ⟨process, .inl (128 + signal)⟩ else j }
        return true
      | _ => return false

/-! ### Processes -/

/-- The traps that another process starts with: what is ignored stays ignored. -/
def inherited (traps : Traps) : Traps := traps.filter fun t => t.2 = "" ∧ t.1 ≠ 0

/-- Ends a process after what it did: its last trap is run, unless it was killed or replaced. -/
def ended (runText : String → Act Unit) (act : Act Unit) : Act Unit := do
  match ← Act.attempt act with
  | .error (.killed p n) => throw (.killed p n)
  | .error .replaced => return ()
  | _ =>
    let s ← get
    match s.traps.lookup 0 with
    | none => return ()
    | some action =>
      set { s with traps := s.traps.filter fun t => t.1 ≠ 0, trapped := some s.status }
      match ← Act.attempt (runText action) with
      | .error (.killed p n) => throw (.killed p n)
      | .error .finished | .error .fault | .error .replaced => return ()
      | _ => Act.setStatus s.status

def State.fork (s : State) (process : Nat) : State :=
  { s with
    process
    parent := s.process
    lineage := (s.process, s.traps) :: s.lineage
    nextProcess := max s.nextProcess (process + 1)
    traps := inherited s.traps
    trapped := none
    jobs := [] }

def State.join (s child : State) : State :=
  { s with
    nextProcess := child.nextProcess
    pending := child.pending
    documents := child.documents
    nextKey := child.nextKey
    input := child.input
    captured := child.captured
    files := { child.files with place := s.files.place } }

/-- Runs something as a process of the given number, and tells the status it ends with. -/
def asProcess (runText : String → Act Unit) (process : Nat) (act : Act Unit) : Act Nat := do
  let s ← get
  let (r, child) := (ended runText act).run (s.fork process)
  set (s.join child)
  match r with
  | .error (.killed p n) => if p = process then return 128 + n else throw (.killed p n)
  | _ => return child.status % 256

def inChild (runText : String → Act Unit) (act : Act Unit) : Act Nat := do
  asProcess runText (← get).nextProcess act

/-- What running a process beside this one writes. -/
def captured (act : Act Nat) : Act (Nat × String) := do
  let s ← get
  set { s with sink := .captured, captured := "" }
  let r ← Act.attempt act
  let text := (← get).captured
  modify fun t => { t with sink := s.sink, captured := s.captured }
  match r with
  | .ok n => return (n, text)
  | .error e => throw e

end RobotConsole.Restart
