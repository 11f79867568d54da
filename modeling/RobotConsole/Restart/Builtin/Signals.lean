import RobotConsole.Restart.Program
import RobotConsole.Restart.Signal

/-!
Numbers in words, and the commands that end loops, send signals, set what is done on them, and wait.
-/

namespace RobotConsole.Restart.Builtin

/-- The number in a word: from zero on, and of 31 bits. -/
def number (word : String) : Act Nat :=
  Act.orFault (((Sum.decimal? word).filter fun n => 0 ≤ n ∧ n < 2 ^ 31).map Int.toNat)

def leavingStatus (words : List String) : Act Nat := do
  match words with
  | [] => return (← get).trapped.getD (← get).status
  | w :: _ => number w

def leaveLoops (stop : Nat → Stop) (words : List String) : Act Unit := do
  let n ← (match words with | [] => pure 1 | w :: _ => number w : Act Nat)
  if n = 0 then Act.fault
  Act.setStatus 0
  let m := min n (← get).loops
  if m > 0 then throw (stop m)

def process (word : String) : Act (Option Nat) := do
  let s ← get
  match word.toList with
  | '%' :: cs =>
    let j ← Act.orFault (if [[], ['%'], ['+']].contains cs then s.jobs.getLast?
      else (String.ofList cs).toNat?.bind fun n => if n = 0 then none else s.jobs[n - 1]?)
    return some j.process
  | '-' :: cs =>
    let _ ← number (String.ofList cs)
    return none
  | _ => return some (← number word)

def sendAll (signal : Nat) (failed : Bool) : List String → Act Unit
  | [] => Act.ofBool !failed
  | w :: ws => do
    match ← process w with
    | some p =>
      let found ← if p = 1 ∧ signal = 0 then pure true else send p signal
      sendAll signal (failed || !found) ws
    | none => sendAll signal true ws

/-- Writes the name of a signal, or of the one that a status tells about. -/
def nameSignal (words : List String) : Act Unit := do
  match words with
  | [] =>
    Act.write ("0\n" ++ String.join ((List.range Signal.last).map fun n => Signal.name (n + 1) ++ "\n"))
    Act.setStatus 0
  | w :: _ =>
    let n ← number w
    let n := if n > 128 then n - 128 else n
    if n = 0 ∨ n > Signal.last then Act.fault
    Act.write (Signal.name n ++ "\n")
    Act.setStatus 0

/-- Sends a signal, the one for termination if none is named. -/
def kill (words : List String) : Act Unit := do
  match words with
  | [] => Act.fault
  | w :: ws =>
    match w.toList with
    | '-' :: cs =>
      match Signal.ofText? 1 (String.ofList cs) with
      | some n => sending n ws
      | none =>
        match cs, ws with
        | ['-'], ws => sending 15 ws
        | ['l'], "--" :: ws => nameSignal ws
        | ['l'], ws => nameSignal ws
        | ['s'], name :: ws => named name ws
        | 's' :: name, ws => named (String.ofList name) ws
        | _, _ => Act.fault
    | _ => sending 15 (w :: ws)
where
  sending (n : Nat) (ws : List String) : Act Unit := if ws.isEmpty then Act.fault else sendAll n false ws
  named (name : String) (ws : List String) : Act Unit := do
    let n ← Act.orFault (Signal.ofText? 1 name)
    sending n (match ws with | "--" :: ws => ws | ws => ws)

def setTraps (action : Option String) : List String → Act Unit
  | [] => Act.setStatus 0
  | w :: ws => do
    match Signal.ofText? 0 w with
    | none => Act.setStatus 1
    | some n =>
      modify fun s =>
        let others := s.traps.filter fun t => t.1 ≠ n
        { s with traps := match action with | some a => (n, a) :: others | none => others }
      setTraps action ws

/-- Sets what is done on signals, as the words of `trap` tell. -/
def trap (words : List String) : Act Unit := do
  let (letters, words) := Program.optionsAndRest words
  if letters.isEmpty then traps words else Act.fault
where
  traps (words : List String) : Act Unit :=
    match words with
    | [] => Act.setStatus 0
    | [w] => setTraps none [w]
    | action :: names =>
      if (Signal.ofDigits? action).isSome then setTraps none (action :: names)
      else setTraps (if action = "-" then none else some action) names

/-- Waits for a job, which is run now if it has not been. -/
def waitFor (r : Runner) (process : Nat) : Act Nat := do
  match (← get).jobs.find? fun j => j.process = process with
  | none => return 127
  | some ⟨_, .inl status⟩ => return status
  | some ⟨_, .inr command⟩ =>
    let done (n : Nat) : Act Unit :=
      modify fun s => { s with jobs := s.jobs.map fun j => if j.process = process then ⟨process, .inl n⟩ else j }
    done 0
    let status ← asProcess (r.script false) process (do
      modify fun s => { s with input := [] }
      r.run false command)
    done status
    return status

def wait (r : Runner) (words : List String) : Act Unit := do
  if words.isEmpty then
    for j in (← get).jobs do let _ ← waitFor r j.process
    Act.setStatus 0
  else
    for w in words do
      match ← process w with
      | some p => Act.setStatus (← waitFor r p)
      | none => Act.fault

end RobotConsole.Restart.Builtin
