import RobotConsole.Restart.ExitStatus
import RobotConsole.Restart.Sum

/-!
The signals that a script can name.
-/

namespace RobotConsole.Restart.Signal

def last : Nat := 64

/-- The name that a script uses for a signal: some have only their number, and those for programs of
their own are counted from both ends. -/
def name (n : Nat) : String :=
  if n = 0 then "EXIT"
  else if n = 16 ∨ n = 32 ∨ n = 33 then toString n
  else if n < 34 then (ExitStatus.signalName? n).getD ""
  else if n = 34 then "RTMIN"
  else if n ≤ 49 then "RTMIN+" ++ toString (n - 34)
  else if n < 64 then "RTMAX-" ++ toString (64 - n)
  else "RTMAX"

def ofDigits? (text : String) : Option Nat :=
  if text ≠ "" ∧ text.toList.all Char.isDigit then
    let n := (Sum.digits 10 0 text.toList).1
    if n ≤ last then some n else none
  else none

/-- The signal from `least` on that a number or a name stands for, in whatever case. -/
def ofText? (least : Nat) (text : String) : Option Nat :=
  (ofDigits? text).or <|
    (List.range (last + 1)).find? fun n => least ≤ n ∧ name n = String.ofList (text.toList.map Char.toUpper)

end RobotConsole.Restart.Signal
