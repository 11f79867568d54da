import RobotConsole.Session.Surroundings
import RobotConsole.Text.Blank

/-!
What a session prints, notice by notice.
-/

namespace RobotConsole

inductive Notice where
  | greeting
  | prompt
  /-- A help text, or why a line is not carried out. -/
  | remark (text : String)
  | sent (message : String)
  | notSent (f : SendFailure)
  /-- How to leave a display that has no limit. -/
  | displayHint
  /-- A frame of a display, over the whole screen if that has no limit. -/
  | frame (wholeScreen : Bool) (text : String)
  | noRestartCommand
  | restart (result : RestartResult)
  | endOfInput
  | farewell

namespace Notice

def clearScreen : String := "\x1b[2J\x1b[H"

def restartText : RestartResult → String
  | .ok s =>
    if s.succeeded then "Restarted robot services" else s!"Restart command failed ({s.text})"
  | .error e => s!"Failed to run restart command: {e}"

def text : Notice → String
  | .greeting => "Botscope diagnostics shell. Type 'help' for the list of commands.\n"
  | .prompt => "⚡ "
  | .remark text => String.ofList (Text.trimEnd text.toList) ++ "\n"
  | .sent message => message ++ "\n"
  | .notSent f => s!"Failed to send primitive: {f.text}\n"
  | .displayHint => "Press Enter to return to the shell.\n"
  | .frame wholeScreen text => if wholeScreen then clearScreen ++ text else text
  | .noRestartCommand =>
    "No restart command configured; set robot.restart_command in the configuration file.\n"
  | .restart result => restartText result ++ "\n"
  | .endOfInput => "\n"
  | .farewell => "Goodbye!\n"

end Notice
end RobotConsole
