import RobotConsole.CommandLine.Reading

/-!
The commands of the console and their options.  Options that every command takes may also stand
before the command.
-/

namespace RobotConsole.Console

open CommandLine

def defaultFile : String := "botscope.toml"

def defaultWaitMillis : Nat := 1000

def defaultRobots : Nat := 6

def defaultSeed : Nat := 0

def withDefault (about : String) (value : Nat) : String := s!"{about} [default: {value}]"

def configOption : Named :=
  ⟨"config", some ("CONFIG", .path),
    s!"Path to the TOML configuration file [default: {defaultFile}]"⟩

def logOption : Named :=
  ⟨"log-level", some ("LOG_LEVEL", .text),
    "Log filter, for example `debug` or `botscope=trace`; defaults to `RUST_LOG` or `info`"⟩

def interfaceOption : Named :=
  ⟨"interface", some ("INTERFACE", .text), "Network interface the robots are reachable on"⟩

def channelOption : Named := ⟨"channel", some ("CHANNEL", .word), "Robot multicast channel"⟩

def waitOption : Named :=
  ⟨"wait-ms", some ("WAIT_MS", .size),
    withDefault "How long to listen for robot statuses before printing, in milliseconds"
      defaultWaitMillis⟩

def simulateOption : Named :=
  ⟨"simulate", none, "Drive the view from a simulated team instead of the network"⟩

def robotsOption : Named :=
  ⟨"robots", some ("ROBOTS", .size), withDefault "Number of simulated robots" defaultRobots⟩

def seedOption : Named :=
  ⟨"seed", some ("SEED", .size), withDefault "Seed of the simulated team" defaultSeed⟩

def rateOption : Named := ⟨"show-fps", none, "Log frame timing once per second"⟩

def grammar : Program where
  name := "botscope"
  about := "Diagnostics shell and trail viewer for soccer robots"
  version := some "0.1.0"
  lead := "botscope "
  options := [configOption, logOption, interfaceOption, channelOption]
  commands :=
    [⟨"shell", [], "Interactive shell sending manual commands to a robot", [],
      [configOption, logOption, interfaceOption, channelOption]⟩,
     ⟨"trails", [], "Window showing recent positions of every robot on the team", [],
      [configOption, simulateOption, logOption, robotsOption, interfaceOption, seedOption,
        channelOption, rateOption]⟩,
     ⟨"status", [], "Prints the latest robot status and the stored robot configuration", [],
      [configOption, waitOption, logOption, interfaceOption, channelOption]⟩]

end RobotConsole.Console
