import RobotConsole.CommandLine.Help
import RobotConsole.CommandLine.Similarity
import RobotConsole.Text.ControlSequence

/-!
Reading a command line word by word.  A value is checked when the next argument begins or at the
end, so that an unknown word before that is reported instead; values that are missing come last.
After a word `--` every word is a value.
-/

namespace RobotConsole.CommandLine

abbrev Word := List Char

inductive Fault where
  | unknownCommand (word : String)
  | unexpected (word : String)
  | unexpectedValue (value label : String)
  | missing (labels : List String)
  | invalidValue (value label reason : String)
  | valueRequired (label : String)
  | repeated (label : String)
  | commandRequired (program : String) (commands : List String)
  deriving DecidableEq, Repr

namespace Fault

/-- A word of the command line as messages show it. -/
def cited (word : String) : String := Text.withoutControls word

def message : Fault → String
  | .unknownCommand word => s!"unrecognized subcommand '{cited word}'"
  | .unexpected word => s!"unexpected argument '{cited word}' found"
  | .unexpectedValue value label =>
    s!"unexpected value '{cited value}' for '{label}' found; no more were expected"
  | .missing labels =>
    "the following required arguments were not provided:" ++
      String.join (labels.map fun l => s!"\n  {l}")
  | .invalidValue value label reason => s!"invalid value '{cited value}' for '{label}': {reason}"
  | .valueRequired label => s!"a value is required for '{label}' but none was supplied"
  | .repeated label => s!"the argument '{label}' cannot be used multiple times"
  | .commandRequired program commands =>
    let names := String.intercalate ", " commands
    s!"'{program}' requires a subcommand but one was not provided\n  [subcommands: {names}]"

def showsUsage : Fault → Bool
  | .invalidValue .. => false
  | .valueRequired .. => false
  | _ => true

end Fault

/-- A fault and what is told with it. -/
structure Refusal where
  fault : Fault
  usage : String
  /-- Whether the way to more help is told. -/
  hasHelp : Bool
  deriving DecidableEq, Repr

def Refusal.report (r : Refusal) : String :=
  let usage := if r.fault.showsUsage then s!"\nUsage: {r.usage}\n" else ""
  let help := if r.hasHelp then "\nFor more information, try '--help'.\n" else ""
  s!"error: {r.fault.message}\n{usage}{help}"

/-- Why reading ends before the last word. -/
inductive Stop where
  | help
  | version
  | fault (f : Fault) (given : Given)

/-- What a word may be by its dashes. -/
inductive Shape where
  | escape
  | long (name : Word) (value : Option Word)
  | short (letters : Word)
  | plain

def shape : Word → Shape
  | ['-', '-'] => .escape
  | '-' :: '-' :: rest =>
    match rest.dropWhile (· ≠ '=') with
    | [] => .long rest none
    | _ :: value => .long (rest.takeWhile (· ≠ '=')) (some value)
  | ['-'] => .plain
  | '-' :: letters => .short letters
  | _ => .plain

/-- Digits and at most one point, which is not first, up to an exponent that is not empty.  The
arguments say whether a character came before and whether a point may still come. -/
def isNegativeNumber (started pointAllowed : Bool) : Word → Bool
  | [] => true
  | c :: cs =>
    if c.isDigit then isNegativeNumber true pointAllowed cs
    else if c = '.' then started && pointAllowed && isNegativeNumber true false cs
    else (c = 'e' || c = 'E') && started && !cs.isEmpty && cs.all Char.isDigit

/-- An argument that has begun and is not checked yet. -/
inductive Pending where
  | none
  /-- An option whose value has not come. -/
  | awaiting (option : Named)
  | option (option : Named) (kind : ValueKind) (value : Word)
  | positional (slot : Positional) (value : Word)

structure Progress where
  scope : Scope
  values : List Value
  options : List (String × Value)
  pending : Pending
  /-- The places not filled yet. -/
  due : List Positional

namespace Progress

def start (scope : Scope) : Progress := ⟨scope, [], [], .none, scope.positionals⟩

def givenOptions (p : Progress) : List Named :=
  p.options.filterMap fun (name, _) => p.scope.options.find? fun o => o.name = name

/-- What the words so far held, an argument that has begun included: it counts though its value is
wrong, but an option that is given twice does not count any more. -/
def given (p : Progress) : Given :=
  let g : Given := ⟨p.givenOptions, p.values.length, false⟩
  match p.pending with
  | .none => g
  | .awaiting _ => g
  | .option o _ _ =>
    if g.options.any fun q => q.name = o.name then
      { g with options := g.options.filter fun q => q.name ≠ o.name }
    else g.withOption o
  | .positional _ _ => { g with places := g.places + 1 }

/-- What was given before a switch that came with a value. -/
def givenWithSwitch (p : Progress) (o : Named) : Given :=
  let asChoice := !p.values.isEmpty || p.givenOptions.any p.scope.owns
  ({ p.given with options := p.givenOptions, places := p.values.length, asChoice := asChoice } :
    Given).withOption o

/-- What was given before an option that does not exist, and the option that may be meant. -/
def givenWithUnknown (p : Progress) (name : Word) : Given :=
  let known := p.scope.longOptions
  match Similarity.closest? name (known.map fun o => o.name.toList) with
  | some meant =>
    match known.find? fun o => o.name.toList = meant with
    | some o => p.given.withOption o
    | none => p.given
  | none => p.given

def setOption (p : Progress) (o : Named) (kind : ValueKind) (value : Word) :
    Except Fault Progress :=
  if p.options.any fun (name, _) => name = o.name then .error (.repeated o.label)
  else if kind = .path ∧ value = [] then .error (.valueRequired o.label)
  else
    match kind.read value with
    | .ok v => .ok { p with options := p.options ++ [(o.name, v)], pending := .none }
    | .error reason => .error (.invalidValue (String.ofList value) o.label reason)

/-- Checks the argument that has begun. -/
def settle (p : Progress) : Except Fault Progress :=
  match p.pending with
  | .none => .ok p
  | .awaiting o => .error (.valueRequired o.label)
  | .option o kind value => p.setOption o kind value
  | .positional slot value =>
    match slot.kind.read value with
    | .ok v => .ok { p with values := p.values ++ [v], pending := .none }
    | .error reason => .error (.invalidValue (String.ofList value) slot.label reason)

/-- A fault that is told with the usage of the command alone. -/
def plainly (f : Fault) : Stop := .fault f .nothing

def settleOrStop (p : Progress) : Except Stop Progress := p.settle.mapError plainly

def place (p : Progress) (word : Word) : Except Stop Progress :=
  match p.due with
  | [] => .error (plainly (.unexpected (String.ofList word)))
  | slot :: due => do
    let p ← p.settleOrStop
    return { p with pending := .positional slot word, due := due }

/-- A switch begins, which takes no value. -/
def switch (p : Progress) (o : Named) (value : Option Word)
    (next : Progress → Except Stop Progress) : Except Stop Progress :=
  match value with
  | some v =>
    .error (.fault (.unexpectedValue (String.ofList v) o.label) (p.givenWithSwitch o))
  | none => p.settleOrStop >>= next

/-- An option begins, with or without a value attached to its name. -/
def long (p : Progress) (name : Word) (value : Option Word) : Except Stop Progress :=
  match p.scope.options.find? fun o => o.name.toList = name with
  | some o =>
    match o.value with
    | some (_, kind) => do
      let p ← p.settleOrStop
      match value with
      | some v => (p.setOption o kind v).mapError plainly
      | none => return { p with pending := .awaiting o }
    | none =>
      p.switch o value fun p =>
        if p.options.any fun (n, _) => n = o.name then .error (plainly (.repeated o.label))
        else .ok { p with options := p.options ++ [(o.name, .given)] }
  | none =>
    if name = helpOption.name.toList then p.switch helpOption value fun _ => .error .help
    else if p.scope.hasVersion ∧ name = versionOption.name.toList then
      p.switch versionOption value fun _ => .error .version
    else
      .error (.fault (.unexpected (String.ofList ('-' :: '-' :: name))) (p.givenWithUnknown name))

def short (p : Progress) (letters : Word) : Except Stop Progress :=
  match letters with
  | 'h' :: _ => p.settleOrStop >>= fun _ => .error .help
  | 'V' :: _ =>
    if p.scope.hasVersion then p.settleOrStop >>= fun _ => .error .version
    else .error (plainly (.unexpected "-V"))
  | c :: _ => .error (plainly (.unexpected (String.ofList ['-', c])))
  | [] => .ok p

/-- Whether a word after a dash is a value for the next place. -/
def takesNegative (p : Progress) (letters : Word) : Bool :=
  match p.due with
  | slot :: _ => slot.kind = .float && isNegativeNumber false true letters
  | [] => false

/-- A word that is no option: the value of an option that awaits one, or that of the next place. -/
def plain (p : Progress) (word : Word) : Except Stop Progress :=
  match p.pending with
  | .awaiting o =>
    match o.value with
    | some (_, kind) => .ok { p with pending := .option o kind word }
    | none => .ok p
  | _ => p.place word

end Progress

/-- The values of a command's words, `trailing` telling whether a `--` came before. -/
def readCommand (trailing : Bool) (p : Progress) : List Word → Except Stop Progress
  | [] => do
    let p ← p.settleOrStop
    let missing := (p.due.filter Positional.required).map Positional.label
    if missing = [] then return p else .error (Progress.plainly (.missing missing))
  | w :: ws =>
    if trailing then do readCommand true (← p.place w) ws
    else
      match shape w with
      | .escape => readCommand true p ws
      | .long name value => do readCommand false (← p.long name value) ws
      | .short letters => do
        if p.takesNegative letters then readCommand false (← p.plain w) ws
        else readCommand false (← p.short letters) ws
      | .plain => do readCommand false (← p.plain w) ws

inductive Request where
  /-- A command with its values in order and its options; of an option given twice, once before and
  once after the command, the later counts. -/
  | run (command : Command) (values : List Value) (options : List (String × Value))
  | help (text : String)
  /-- Nothing was asked, which is answered with help. -/
  | nothing (help : String)
  | version (text : String)
  | refused (r : Refusal)

namespace Program

/-- The refusal of a word that names no command, where a usage and help are told. -/
def unknown (usage : String) (hasHelp : Bool) (w : Word) : Request :=
  .refused ⟨.unknownCommand (String.ofList w), usage, hasHelp⟩

def helpRequest (p : Program) : List Word → Request
  | [] => .help p.help
  | w :: ws =>
    match p.command? w with
    | some c =>
      match ws with
      | [] => .help (p.commandHelp c)
      | w :: _ => unknown (p.commandScope c).plainUsage true w
    | none =>
      if w = helpCommandName.toList then
        match ws with
        | [] => .help p.helpCommandHelp
        | w :: _ => unknown p.helpCommandUsage false w
      else unknown p.scope.plainUsage true w

def versionText (p : Program) : String :=
  let version := p.version.getD ""
  s!"{p.name} {version}\n"

/-- What a stop amounts to, within a scope that has this help. -/
def stopped (p : Program) (scope : Scope) (help : String) : Stop → Request
  | .help => .help help
  | .version => .version p.versionText
  | .fault f given => .refused ⟨f, scope.usage given, true⟩

/-- Reads the words of a command, then checks what came before it. -/
def commandRequest (p : Program) (before : Progress) (c : Command) (ws : List Word) : Request :=
  match readCommand false (.start (p.commandScope c)) ws with
  | .error s => p.stopped (p.commandScope c) (p.commandHelp c) s
  | .ok r =>
    match before.settle with
    | .error f => .refused ⟨f, p.scope.plainUsage, true⟩
    | .ok before => .run c r.values (r.options ++ before.options)

/-- Checks a command line that names no command. -/
def endRequest (p : Program) (before : Progress) : Request :=
  match before.settle with
  | .error f => .refused ⟨f, p.scope.plainUsage, true⟩
  | .ok before =>
    if before.options = [] then .nothing p.help
    else
      .refused
        ⟨.commandRequired p.name (p.commands.map Command.name ++ [helpCommandName]),
          p.scope.plainUsage, true⟩

/-- Reads words up to the name of a command. -/
def readFrom (p : Program) (trailing : Bool) (before : Progress) : List Word → Request
  | [] => p.endRequest before
  | w :: ws =>
    if trailing then
      if (p.command? w).isSome ∨ w = helpCommandName.toList then
        .refused ⟨.unexpected (String.ofList w), p.scope.plainUsage, true⟩
      else unknown p.scope.plainUsage true w
    else
      let next (r : Except Stop Progress) :=
        match r with
        | .ok before => readFrom p false before ws
        | .error s => p.stopped p.scope p.help s
      match before.pending with
      | .awaiting _ =>
        match shape w with
        | .escape => readFrom p true before ws
        | .long name value => next (before.long name value)
        | .short letters => next (before.short letters)
        | .plain => next (before.plain w)
      | _ =>
        match p.command? w with
        | some c => p.commandRequest before c ws
        | none =>
          if w = helpCommandName.toList then p.helpRequest ws
          else
            match shape w with
            | .escape => readFrom p true before ws
            | .long name value => next (before.long name value)
            | .short letters => next (before.short letters)
            | .plain => unknown p.scope.plainUsage true w

def read (p : Program) (words : List Word) : Request := p.readFrom false (.start p.scope) words

end Program
end RobotConsole.CommandLine
