import RobotConsole.Binary.Numeral
import RobotConsole.Text.Integer

/-!
Grammars of command lines.  A program has commands, and each command takes values in order and
named options; usage lines and help texts are written from that.
-/

namespace RobotConsole.CommandLine

inductive ValueKind where
  | text
  /-- A text that is not empty. -/
  | path
  | float
  /-- A whole number of sixty-four bits. -/
  | size
  /-- A whole number of thirty-two bits. -/
  | word
  deriving DecidableEq, Repr

inductive Value where
  | text (value : String)
  | float (value : Single)
  | number (value : Nat)
  /-- An option that takes no value was given. -/
  | given
  deriving DecidableEq

def ValueKind.read (kind : ValueKind) (cs : List Char) : Except String Value :=
  match kind with
  | .text => .ok (.text (String.ofList cs))
  | .path => .ok (.text (String.ofList cs))
  | .float =>
    match Binary.ofChars? cs with
    | some x => .ok (.float x)
    | none => .error "invalid float literal"
  | .size =>
    match Text.readNatural (2 ^ 64 - 1) cs with
    | .ok n => .ok (.number n)
    | .error e => .error e.message
  | .word =>
    match Text.readInteger (2 ^ 63) cs with
    | .ok n =>
      if 0 ≤ n ∧ n < 2 ^ 32 then .ok (.number n.toNat)
      else .error s!"{n} is not in 0..={2 ^ 32 - 1}"
    | .error e => .error e.message

/-- A value that is known by its place. -/
structure Positional where
  name : String
  required : Bool
  kind : ValueKind
  about : String

/-- A value that is known by its name, or a switch that takes none. -/
structure Named where
  name : String
  value : Option (String × ValueKind)
  about : String

structure Command where
  name : String
  aliases : List String
  about : String
  positionals : List Positional
  options : List Named

structure Program where
  name : String
  about : String
  version : Option String
  /-- What stands before the name of a command in its usage. -/
  lead : String
  commands : List Command
  options : List Named

def Positional.label (p : Positional) : String :=
  if p.required then s!"<{p.name}>" else s!"[{p.name}]"

def Named.label (o : Named) : String :=
  match o.value with
  | some (value, _) => s!"--{o.name} <{value}>"
  | none => s!"--{o.name}"

def Command.answersTo (c : Command) (word : List Char) : Bool :=
  (c.name :: c.aliases).any fun n => n.toList = word

def Program.command? (p : Program) (word : List Char) : Option Command :=
  p.commands.find? fun c => c.answersTo word

def helpOption : Named := ⟨"help", none, "Print help"⟩

def versionOption : Named := ⟨"version", none, "Print version"⟩

def helpCommandName : String := "help"

/-- What a command line can hold at some point: before its command is known, or after. -/
structure Scope where
  /-- The name of the program or command in usage lines. -/
  title : String
  options : List Named
  /-- The options that are not taken over from the program. -/
  own : List Named
  positionals : List Positional
  hasVersion : Bool
  needsCommand : Bool

def Program.scope (p : Program) : Scope :=
  ⟨p.name, p.options, p.options, [], p.version.isSome, true⟩

def Program.commandScope (p : Program) (c : Command) : Scope :=
  ⟨p.lead ++ c.name, c.options, c.options.filter fun o => p.options.all fun q => q.name ≠ o.name,
    c.positionals, false, false⟩

/-- The long options, those of the command itself first. -/
def Scope.longOptions (s : Scope) : List Named :=
  s.own ++ (s.options.filter fun o => s.own.all fun q => q.name ≠ o.name) ++
    helpOption :: if s.hasVersion then [versionOption] else []

end RobotConsole.CommandLine
