import RobotConsole.CommandLine.Grammar

/-!
Usage lines.  A usage line says what a command line may hold; one for a command line that went wrong
names what it already held.
-/

namespace RobotConsole.CommandLine

/-- What a command line held before it went wrong. -/
structure Given where
  /-- Options in the order they came. -/
  options : List Named
  /-- How many values came in their places. -/
  places : Nat
  /-- Whether the arguments of the command itself are named as one choice. -/
  asChoice : Bool

namespace Given

def nothing : Given := ⟨[], 0, false⟩

def isNothing (g : Given) : Bool := g.options.isEmpty && g.places = 0

/-- The same with one more option, unless it is there. -/
def withOption (o : Named) (g : Given) : Given :=
  if g.options.any fun q => q.name = o.name then g else { g with options := g.options ++ [o] }

end Given

namespace Scope

def commandMark (s : Scope) : List String := if s.needsCommand then ["<COMMAND>"] else []

/-- The usage of a command line that held nothing yet. -/
def plainUsage (s : Scope) : String :=
  let options := if s.options.isEmpty then [] else ["[OPTIONS]"]
  String.intercalate " "
    (s.title :: options ++ s.positionals.map Positional.label ++ s.commandMark)

/-- The arguments of the command itself as one choice. -/
def choice (s : Scope) : String :=
  let names := s.own.map Named.label ++ s.positionals.map Positional.name
  let listed := String.intercalate "|" names
  s!"<{listed}>"

/-- The places, those that were filled first and as if they had to be. -/
def placeLabels (s : Scope) (filled : Nat) : List String :=
  (s.positionals.take filled).map (fun p => ({ p with required := true } : Positional).label) ++
    (s.positionals.drop filled).map Positional.label

def owns (s : Scope) (o : Named) : Bool := s.own.any fun q => q.name = o.name

def usageAfter (s : Scope) (g : Given) : String :=
  let options := if g.asChoice then g.options.filter fun o => !s.owns o else g.options
  let places := if g.asChoice then [s.choice] else s.placeLabels g.places
  String.intercalate " " (s.title :: options.map Named.label ++ places ++ s.commandMark)

def usage (s : Scope) (g : Given) : String := if g.isNothing then s.plainUsage else s.usageAfter g

end Scope

def Program.helpCommandUsage (p : Program) : String := s!"{p.lead}{helpCommandName} [COMMAND]..."

end RobotConsole.CommandLine
