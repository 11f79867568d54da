/-!
How a command came to its end.
-/

namespace RobotConsole

inductive ExitStatus where
  | exited (code : Nat)
  | killed (signal : Nat)
  deriving DecidableEq, Repr

namespace ExitStatus

def signalNames : List String :=
  ["HUP", "INT", "QUIT", "ILL", "TRAP", "ABRT", "BUS", "FPE", "KILL", "USR1", "SEGV", "USR2", "PIPE",
    "ALRM", "TERM", "STKFLT", "CHLD", "CONT", "STOP", "TSTP", "TTIN", "TTOU", "URG", "XCPU", "XFSZ",
    "VTALRM", "PROF", "WINCH", "IO", "PWR", "SYS"]

def signalName? (signal : Nat) : Option String :=
  if signal = 0 then none else signalNames[signal - 1]?

def text : ExitStatus → String
  | .exited code => s!"exit status: {code}"
  | .killed signal =>
    match signalName? signal with
    | some name => s!"signal: {signal} (SIG{name})"
    | none => s!"signal: {signal}"

def succeeded (s : ExitStatus) : Bool := s = .exited 0

end ExitStatus

/-- What comes of a restart command: how it ended, or why it could not be run. -/
abbrev RestartResult := Except String ExitStatus

end RobotConsole
