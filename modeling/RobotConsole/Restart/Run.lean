import RobotConsole.Restart.Builtin
import RobotConsole.Restart.Grammar

/-!
Running commands.  What runs one command is given what runs the commands within it, so each level of
nesting is built on the one below.
-/

namespace RobotConsole.Restart.Run

/-! ### Redirections -/

/-- Connects the output of a descriptor with what a path leads to. -/
def openOutput (descriptor : Nat) (path : String) (appends : Bool) : Act Bool := do
  let s ← get
  let kind := s.files.kind? path
  if kind = some .directory || (kind.isNone && !s.files.hasPlaceFor path) then return false
  else
    let files := if appends && kind.isSome then s.files else s.files.write path ""
    set { s with
      files
      descriptors := descriptor :: s.descriptors
      sink := if descriptor ≠ 1 then s.sink else if kind = some FileKind.device then .nowhere else .file path }
    return true

/-- Connects a descriptor with what another one is connected with. -/
def duplicate (descriptor : Nat) (target : String) : Act Bool := do
  let s ← get
  if target = "-" then
    set { s with
      descriptors := s.descriptors.filter (· ≠ descriptor)
      sink := if descriptor = 1 then .nowhere else s.sink
      input := if descriptor = 0 then [] else s.input }
    return true
  else
    let source ← Act.orFault (if target.length = 1 then Signal.ofDigits? target else none)
    if source ∈ s.descriptors then
      set { s with
        descriptors := descriptor :: s.descriptors
        sink := if descriptor = 1 ∧ source = 2 then .outside else s.sink }
      return true
    else return false

/-- Makes one redirection, and tells whether it could be made. -/
def redirect (r : Runner) : Redirection → Act Bool
  | .mk descriptor connection target => do
    match connection with
    | .document key =>
      let text ← Expansion.single r (((← get).documents.lookup key).getD [])
      modify fun s => { s with input := if descriptor = 0 then text.toList else s.input }
      return true
    | .input =>
      let path ← Expansion.single r target
      let s ← get
      match s.files.kind? path with
      | none => return false
      | some _ =>
        let text := (s.files.content? path).getD ""
        set { s with
          descriptors := descriptor :: s.descriptors
          input := if descriptor = 0 then text.toList else s.input }
        return true
    | .output => do openOutput descriptor (← Expansion.single r target) false
    | .append => do openOutput descriptor (← Expansion.single r target) true
    | .both => do
      let path ← Expansion.single r target
      let s ← get
      if s.files.kind? path = some .directory then return false
      else openOutput descriptor path true
    | .duplicate => do duplicate descriptor (← Expansion.single r target)

def redirectAll (r : Runner) : List Redirection → Act Bool
  | [] => return true
  | d :: ds => do if ← redirect r d then redirectAll r ds else return false

/-- Runs something with redirections, and tells whether they could be made. -/
def redirected (r : Runner) (ds : List Redirection) (act : Act Unit) : Act Bool := do
  if ds.isEmpty then
    act
    return true
  else
    let s ← get
    let made ← Act.attempt (redirectAll r ds)
    let result ← (match made with
      | .ok true => Act.attempt act
      | .ok false => do
        Act.setStatus 2
        return .ok ()
      | .error e => return .error e : Act (Except Stop Unit))
    let readsElse := ds.any fun | .mk d _ _ => d = 0
    modify fun t => { t with
      sink := s.sink
      descriptors := s.descriptors
      input := if readsElse then s.input else t.input }
    match made, result with
    | .ok b, .ok _ => return b
    | _, .error e => throw e
    | .error e, _ => throw e

/-! ### Simple commands -/

/-- Gives variables the values that stand before a command. -/
def assignAll (r : Runner) (exported : Bool) : List (String × Word) → Act Unit
  | [] => return ()
  | (name, w) :: rest => do
    Act.assign name (← Expansion.single r w)
    if exported then modify fun s => s.withVariable name fun v => { v with exported := true }
    assignAll r exported rest

def restore (names : List (String × Option Variable)) : Act Unit :=
  modify fun s =>
    let others := s.bindings.filter fun v => names.all fun e => e.1 ≠ v.1
    { s with bindings := (names.filterMap fun e => e.2.map fun v => (e.1, v)) ++ others }

/-- Runs something with values that bindings have only meanwhile. -/
def withValues (r : Runner) (assignments : List (String × Word)) (act : Act Unit) : Act Unit := do
  if assignments.isEmpty then act
  else
    let s ← get
    let before := assignments.map fun a => (a.1, s.bindings.lookup a.1)
    let result ← Act.attempt (do
      assignAll r true assignments
      act)
    restore before
    match result with
    | .ok _ => return ()
    | .error e => throw e

def callLimit : Nat := 1000

def call (r : Runner) (tested : Bool) (body : Command) (arguments : List String) : Act Unit := do
  let s ← get
  if s.locals.length ≥ callLimit then Act.fault
  set { s with arguments, loops := 0, locals := [] :: s.locals }
  let result ← Act.attempt (r.run tested body)
  restore ((← get).locals.headD [])
  modify fun t => { t with arguments := s.arguments, loops := s.loops, locals := s.locals }
  match result with
  | .ok _ => return ()
  | .error .returns => return ()
  | .error e => throw e

/-- The words after `command`, and whether it was there. -/
def plain (found : Bool) : List String → Bool × List String
  | ["command"] => (found, ["true"])
  | "command" :: w :: rest =>
    if w = "--" || w = "-p" then plain true rest
    else if w.startsWith "-" then (found, "command" :: w :: rest)
    else plain true (w :: rest)
  | words => (found, words)

/-- Goes on after a fault. -/
def recovered (act : Act Unit) : Act Unit := do
  match ← Act.attempt act with
  | .ok _ => return ()
  | .error .fault => return ()
  | .error e => throw e

def simple (r : Runner) (tested : Bool) (assignments : List (String × Word)) (words : List Word)
    (ds : List Redirection) : Act Unit := do
  modify fun s => { s with innerStatus := 0 }
  let (isPlain, words) := plain false (← Expansion.fields r words)
  match words with
  | [] =>
    if ← redirected r ds (assignAll r false assignments) then
      modify fun s => { s with status := s.innerStatus }
  | name :: arguments =>
    let s ← get
    let function := if isPlain then none else s.functions.lookup name
    if name ∈ special then
      let act : Act Unit := do
        assignAll r false assignments
        Builtin.run r tested name arguments
      if isPlain then
        let _ ← redirected r ds (recovered act)
      else if name = "exec" && arguments.isEmpty then
        if ← redirectAll r ds then Act.setStatus 0 else Act.fault
      else if ← redirected r ds act then return ()
      else Act.fault
    else
      match function with
      | some body =>
        let _ ← redirected r ds (withValues r assignments (call r tested body arguments))
      | none =>
        if name ∈ Builtin.regular then
          let _ ← redirected r ds (withValues r assignments (do
            let closed := decide (1 ∉ (← get).descriptors)
            recovered (Builtin.run r tested name arguments)
            if closed && (name = "echo" || name = "printf") then Act.setStatus 1))
        else
          let _ ← redirected r ds (do
            let status ← inChild (r.script false) (do
              assignAll r true assignments
              Builtin.launch r (arguments.length + 2) (name :: arguments))
            Act.setStatus status)

/-! ### Compound commands -/

/-- Runs commands, each reading what the one before it writes. -/
def pipeline (r : Runner) (tested : Bool) : List Command → Act Unit
  | [] => return ()
  | [c] => do Act.setStatus (← inChild (r.script false) (r.run tested c))
  | c :: cs => do
    let s ← get
    let (_, text) ← captured (inChild (r.script false) (r.run tested c))
    modify fun t => { t with input := text.toList }
    pipeline r tested cs
    modify fun t => { t with input := s.input }

inductive Round where
  | whole
  | shortened
  | left
  deriving DecidableEq, Repr

def round (act : Act Unit) : Act Round := do
  match ← Act.attempt act with
  | .ok _ => return .whole
  | .error (.leavesLoops n) => if n ≤ 1 then return .left else throw (.leavesLoops (n - 1))
  | .error (.nextRound n) => if n ≤ 1 then return .shortened else throw (.nextRound (n - 1))
  | .error e => throw e

/-- Runs a loop, of which loops within it know. -/
def inLoop (act : Act Unit) : Act Unit := do
  let loops := (← get).loops
  modify fun s => { s with loops := loops + 1 }
  let result ← Act.attempt act
  modify fun s => { s with loops }
  match result with
  | .ok _ => return ()
  | .error e => throw e

/-- Runs a body as long as a test holds, or until it does; `status` is that of the last round. -/
def rounds (r : Runner) (tested untilHolds : Bool) (test body : Command) (status : Nat) : Nat → Act Unit
  | 0 => Act.fault
  | n + 1 => do
    match ← round (r.run true test) with
    | .left => Act.setStatus status
    | .shortened => rounds r tested untilHolds test body status n
    | .whole =>
      if ((← get).status = 0) = untilHolds then Act.setStatus status
      else
        match ← round (r.run tested body) with
        | .left => return ()
        | _ => rounds r tested untilHolds test body (← get).status n

def eachWord (r : Runner) (tested : Bool) (name : String) (body : Command) : List String → Act Unit
  | [] => return ()
  | w :: ws => do
    Act.assign name w
    match ← round (r.run tested body) with
    | .left => return ()
    | _ => eachWord r tested name body ws

/-- The command of the first branch with a pattern for a text. -/
def branch (r : Runner) (text : String) : List (List Word × Command) → Act (Option Command)
  | [] => return none
  | (patterns, c) :: rest => do
    if ← accepts patterns then return some c else branch r text rest
where
  accepts : List Word → Act Bool
    | [] => return false
    | p :: ps => do
      let pattern := Expansion.glyphs (← r.atoms p)
      if Wildcard.isMatch pattern text.toList then return true else accepts ps

def roundLimit : Nat := 100000

/-- Starts a command beside the script. -/
def start (c : Command) : Act Unit := do
  let s ← get
  set { s with
    nextProcess := s.nextProcess + 1
    jobs := s.jobs ++ [Job.mk s.nextProcess (.inr c)]
    lastJob := some s.nextProcess
    status := 0 }

def runTraps (r : Runner) : Act Unit := do
  let s ← get
  let mine := s.pending.filter fun p => p.1 = s.process
  if mine.isEmpty then return ()
  else
    set { s with pending := s.pending.filter fun p => p.1 ≠ s.process }
    for (_, signal) in mine do
      let t ← get
      match reaction t.traps signal with
      | some action =>
        set { t with trapped := some t.status }
        r.script false action
        modify fun u => { u with trapped := t.trapped, status := t.status }
      | none => return ()

/-- Runs what a command does, unless the script only reads its commands, and then what is due.
`checked` tells that a failure may end a script that is to stop at errors. -/
def completed (r : Runner) (checked : Bool) (act : Act Unit) : Act Unit := do
  if 'n' ∈ (← get).options then return ()
  else
    act
    runTraps r
    let s ← get
    if checked && 'e' ∈ s.options && s.status ≠ 0 then throw .finished

/-- Runs a command, where `tested` tells that a failure of it is looked at.  The commands of a list
are run one by one at the same depth. -/
def command (r : Runner) (tested : Bool) : Command → Act Unit
  | .nothing => Act.setStatus 0
  | .simple assignments words ds => completed r (!tested) (simple r tested assignments words ds)
  | .pipeline cs => completed r (!tested) (pipeline r tested cs)
  | .negation c => completed r false do
    r.run true c
    modify fun s => { s with status := if s.status = 0 then 1 else 0 }
  | .both a b => do
    command r true a
    if (← get).status = 0 then command r tested b
  | .either a b => do
    command r true a
    if (← get).status ≠ 0 then command r tested b
  | .sequence a b => do
    command r tested a
    command r tested b
  | .background c => completed r false (start c)
  | .subshell c => completed r (!tested) do
    Act.setStatus (← inChild (r.script false) (r.run tested c))
  | .redirected c ds => completed r false do
    let _ ← redirected r ds (r.run tested c)
  | .choice test yes no => completed r false do
    r.run true test
    if (← get).status = 0 then r.run tested yes else r.run tested no
  | .loop untilHolds test c =>
    completed r false (inLoop (rounds r tested untilHolds test c 0 roundLimit))
  | .each name words c => completed r false do
    let ws ← Expansion.fields r words
    if ws.isEmpty then Act.setStatus 0
    inLoop (eachWord r tested name c ws)
  | .select w branches => completed r false do
    let text ← Expansion.single r w
    match ← branch r text branches with
    | some c => r.run tested c
    | none => Act.setStatus 0
  | .function name c => completed r false do
    modify fun s => { s with functions := State.put name c s.functions, status := 0 }

/-- Runs the lines of a script after some of them, each when it has been read. -/
def lines (r : Runner) (tested : Bool) (readers : Grammar.Readers) (anyRun : Bool) (reader : Reader) :
    Nat → Act Unit
  | 0 => Act.fault
  | n + 1 => do
    match (Grammar.line readers).run { reader with nextKey := (← get).nextKey, documents := [] } with
    | none => Act.fault
    | some (none, _) => if !anyRun then Act.setStatus 0
    | some (some .nothing, reader) => lines r tested readers anyRun reader n
    | some (some c, reader) =>
      modify fun s =>
        { s with documents := reader.documents ++ s.documents, nextKey := reader.nextKey }
      r.run tested c
      lines r tested readers true reader n

def script (r : Runner) (tested : Bool) (text : String) : Act Unit :=
  let cs := text.toList
  lines r tested (Grammar.readers (cs.length + 2)) false { rest := cs } (cs.length + 2)

/-- What runs commands that are nested up to a depth. -/
def runner : Nat → Runner
  | 0 => ⟨fun _ _ => Act.fault, fun _ => Act.fault, fun _ _ => Act.fault⟩
  | n + 1 =>
    let inner := runner n
    ⟨command inner, Expansion.word inner, script inner⟩

end RobotConsole.Restart.Run
