import RobotConsole.CommandLine.Usage

/-!
Help texts.
-/

namespace RobotConsole.CommandLine

def padEnd (width : Nat) (s : String) : String :=
  s ++ String.ofList (List.replicate (width - s.length) ' ')

/-- Lines of two columns under a heading; nothing where there are no lines. -/
def block (heading : String) (lines : List (String × String)) : String :=
  let width := (lines.map fun (left, _) => left.length).foldl max 0
  if lines.isEmpty then ""
  else
    s!"\n{heading}:\n" ++
      String.join (lines.map fun (left, right) => s!"  {padEnd width left}  {right}\n")

def helpLine : String × String := (s!"-h, {helpOption.label}", helpOption.about)

def versionLine : String × String := (s!"-V, {versionOption.label}", versionOption.about)

/-- An option's line, its name below the long names of options with a short one. -/
def Named.line (o : Named) : String × String := (s!"    {o.label}", o.about)

def Program.commandHelp (p : Program) (c : Command) : String :=
  s!"{c.about}\n\nUsage: {(p.commandScope c).plainUsage}\n" ++
    block "Arguments" (c.positionals.map fun p => (p.label, p.about)) ++
    block "Options" (c.options.map Named.line ++ [helpLine])

def helpCommandAbout : String := "Print this message or the help of the given subcommand(s)"

def Program.help (p : Program) : String :=
  s!"{p.about}\n\nUsage: {p.scope.plainUsage}\n" ++
    block "Commands"
      (p.commands.map (fun c => (c.name, c.about)) ++ [(helpCommandName, helpCommandAbout)]) ++
    block "Options"
      (p.options.map Named.line ++ [helpLine] ++ if p.version.isSome then [versionLine] else [])

def Program.helpCommandHelp (p : Program) : String :=
  s!"{helpCommandAbout}\n\nUsage: {p.helpCommandUsage}\n" ++
    block "Arguments" [("[COMMAND]...", "Print help for the subcommand(s)")]

end RobotConsole.CommandLine
