import RobotConsole.Console.Task
import RobotConsole.Restart.Script
import RobotConsole.Robot.Interface
import RobotConsole.Session.Basic
import RobotConsole.Text.Lines

/-!
The console as a program.  It has no sockets of its own, so that a shell reports every send as
failed and no status ever comes in.
-/

namespace RobotConsole.Terminal

def settingsFile (path : String) : IO Console.SettingsFile := do
  match ← (IO.FS.readBinFile path).toBaseIO with
  | .ok bytes => return .octets bytes.toList
  | .error (.noFileOrDirectory ..) => return .missing
  | .error (.permissionDenied ..) => return .unreadable .refused
  | .error _ => return .unreadable .directory

def interfaces : IO (List Interface) := do
  match ← (IO.FS.readFile "/proc/net/if_inet6").toBaseIO with
  | .ok text => return Interface.ofList text
  | .error _ => return []

def finish (r : Console.Reply) : IO UInt32 := do
  IO.print r.output
  IO.eprint r.errors
  return r.code.toUInt32

/-- What a session meets at an instant: nobody listens, and a display is watched for one frame. -/
def surroundings (s : Settings) (target : Endpoint) (now : Instant) : Surroundings where
  sendFailure := fun _ _ => some (.atEndpoint target .unsupportedFamily)
  displayStart := fun _ => now
  patience := fun _ => 1
  refreshInterval := s.display.refreshInterval
  latestStatus := fun _ => none
  store := Store.ofEntries s.store
  restartCommand := s.robot.restartCommand
  runCommand := Restart.attempt

def tell (notices : List Notice) : IO Unit := do
  IO.print (String.join (notices.map Notice.text))
  (← IO.getStdout).flush

def nextLine? : IO (Option String) := do
  match ← (do (← IO.getStdin).getLine : IO String).toBaseIO with
  | .ok line => return (Text.readLines none line.toUTF8.toList).lines.head?
  | .error _ => return none

/-- Takes lines up to the end of a session, and gives the code to end with. -/
partial def converse (s : Settings) (target : Endpoint) (taken : Nat) : IO UInt32 := do
  tell [.prompt]
  match ← nextLine? with
  | none =>
    tell [.endOfInput, .farewell]
    return 0
  | some text =>
    let here := surroundings s target (← IO.monoNanosNow)
    let r := Session.respond here taken text
    tell r.notices
    match r.next with
    | none => return Console.Reply.brokenOff.code.toUInt32
    | some .leave =>
      tell [.farewell]
      return 0
    | some .nextLine => converse s target (taken + 1)
    | some .skipLine =>
      let _ ← nextLine?
      converse s target (taken + 2)

/-- Does what the words of a command line ask for, and gives the code to end with. -/
def run (words : List String) : IO UInt32 := do
  let known ← interfaces
  let chosen := Console.settingsPath words
  let file ← settingsFile chosen
  let fileAt (path : String) := if path = chosen then file else .missing
  match Console.task (Interface.find? known) fileAt words with
  | .answer r => finish r
  | .shell s group scope =>
    tell [.greeting]
    converse s ⟨group, s.network.primitivePort, scope⟩ 0
  | .status s wait =>
    IO.sleep (wait / Duration.ofMillis 1).toUInt32
    finish (Console.statusReply s none 0)
  | .trails .. => finish (Console.Failure.reply ⟨"no window can be opened", []⟩)

end RobotConsole.Terminal

def main (words : List String) : IO UInt32 := RobotConsole.Terminal.run words
