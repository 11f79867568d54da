import RobotConsole.Restart.Run

/-!
Scripts that restart a robot's services, from their text to the way in which they end.
-/

namespace RobotConsole.Restart

def depth : Nat := 1500

def initial : State :=
  { bindings :=
      [("HOME", ⟨some "/root", true, false⟩),
        ("PATH", ⟨some Builtin.ordinaryPath, true, false⟩),
        ("PWD", ⟨some (Files.text ({} : Files).place), true, false⟩),
        ("IFS", ⟨some " \t\n", false, false⟩), ("OPTIND", ⟨some "1", false, false⟩)] }

/-- How a script ends.  One that starts like an option is taken for options without a script. -/
def run (text : String) : ExitStatus :=
  let r := Run.runner depth
  let act : Act Unit := Builtin.shell r ["-c", text]
  match act.run initial with
  | (.error (.killed _ signal), _) => .killed signal
  | (_, s) => .exited (s.status % 256)

/-- Runs a restart command; one that holds a null character is not run. -/
def attempt (script : String) : RestartResult :=
  if '\x00' ∈ script.toList then .error "nul byte found in provided data" else .ok (run script)

end RobotConsole.Restart
