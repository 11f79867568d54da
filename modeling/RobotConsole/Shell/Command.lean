import RobotConsole.CommandLine.Reading
import RobotConsole.Text.Blank

/-!
The commands of the shell.  A line is cut into words at its blanks and read as a command line.
-/

namespace RobotConsole

inductive ShellCommand where
  | rotate (velocity : Single)
  | move (direction : String) (speed : Single)
  | chip (distance : Single)
  | kick (speed : Single)
  | dribble (velocity : Single)
  | stop
  | stats (frames : Option Nat)
  | config (frames : Option Nat)
  | restart
  | quit
  deriving DecidableEq

namespace ShellCommand

open CommandLine

def number (name about : String) : Positional := ⟨name, true, .float, about⟩

def defaultDistance : Single := 1

def defaultSpeed : Single := 2

/-- A number that may be left out, where `value` then stands for it. -/
def optionalNumber (name about : String) (value : Single) : Positional :=
  ⟨name, false, .float, s!"{about} [default: {value.text}]"⟩

def framesOption : Named :=
  ⟨"frames", some ("FRAMES", .size), "Stop after this many frames instead of waiting for Enter"⟩

def grammar : Program where
  name := "shell"
  about := "Commands understood by the diagnostics shell"
  version := none
  lead := ""
  options := []
  commands :=
    [⟨"rotate", [], "Rotates the robot in place",
      [number "VELOCITY" "Angular velocity in rad/s, positive is counter-clockwise"], []⟩,
     ⟨"move", [], "Moves the robot forward, back, left or right",
      [⟨"DIRECTION", true, .text, "One of forward, back, left, right"⟩,
       number "SPEED" "Speed as a percentage of the robot's maximum"], []⟩,
     ⟨"chip", [], "Chips the ball with the chipper",
      [optionalNumber "DISTANCE" "Distance to the first bounce in metres" defaultDistance], []⟩,
     ⟨"kick", [], "Kicks the ball with the kicker",
      [optionalNumber "SPEED" "Ball speed in m/s" defaultSpeed], []⟩,
     ⟨"dribble", [], "Spins the dribbler", [number "VELOCITY" "Roller velocity in rad/s"], []⟩,
     ⟨"stop", [], "Halts every actuator", [], []⟩,
     ⟨"stats", [], "Shows live robot statistics", [], [framesOption]⟩,
     ⟨"config", ["redis"], "Shows values held by the robot's key-value store", [], [framesOption]⟩,
     ⟨"restart", [], "Restarts the robot's control loop service", [], []⟩,
     ⟨"quit", ["exit"], "Leaves the shell", [], []⟩]

def frames (options : List (String × Value)) : Option Nat :=
  match options.lookup "frames" with
  | some (.number n) => some n
  | _ => none

/-- The float in a place, where `value` stands for one that was left out. -/
def floatAt (values : List Value) (i : Nat) (value : Single) : Single :=
  match values[i]? with
  | some (.float x) => x
  | _ => value

def textAt (values : List Value) (i : Nat) : String :=
  match values[i]? with
  | some (.text s) => s
  | _ => ""

def ofValues (name : String) (values : List Value) (options : List (String × Value)) :
    ShellCommand :=
  match name with
  | "rotate" => .rotate (floatAt values 0 0)
  | "move" => .move (textAt values 0) (floatAt values 1 0)
  | "chip" => .chip (floatAt values 0 defaultDistance)
  | "kick" => .kick (floatAt values 0 defaultSpeed)
  | "dribble" => .dribble (floatAt values 0 0)
  | "stop" => .stop
  | "stats" => .stats (frames options)
  | "config" => .config (frames options)
  | "restart" => .restart
  | _ => .quit

end ShellCommand

/-- What a line typed into the shell amounts to. -/
inductive ShellLine where
  | empty
  | command (c : ShellCommand)
  /-- It asked for help. -/
  | help (text : String)
  /-- It could not be read; the text says why. -/
  | invalid (text : String)

namespace ShellLine

def ofRequest : CommandLine.Request → ShellLine
  | .run c values options => .command (.ofValues c.name values options)
  | .help text => .help text
  | .nothing text => .help text
  | .version text => .help text
  | .refused r => .invalid r.report

def ofWords (words : List CommandLine.Word) : ShellLine :=
  if words = [] then .empty else ofRequest (ShellCommand.grammar.read words)

def read (line : String) : ShellLine := ofWords (Text.words line.toList)

end ShellLine
end RobotConsole
