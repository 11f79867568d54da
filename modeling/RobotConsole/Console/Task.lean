import RobotConsole.CommandLine.Reading
import RobotConsole.Console.Grammar
import RobotConsole.Console.LogFilter
import RobotConsole.Files
import RobotConsole.Settings.Basic
import RobotConsole.Simulation.Team
import RobotConsole.Status.Board
import RobotConsole.Store.File

/-!
What the console is started for.  The words of its command line and its settings file are read, and
the words go before the file; what then needs neither the network nor a window is answered at once.
-/

namespace RobotConsole.Console

open CommandLine

structure Reply where
  code : Nat
  output : String
  errors : String
  deriving DecidableEq, Repr

/-- The reply of a run that breaks off, with nothing that a program could read. -/
def Reply.brokenOff : Reply := ⟨101, "", ""⟩

/-- A failure, and what caused it, each in turn. -/
structure Failure where
  message : String
  causes : List String
  deriving DecidableEq, Repr

namespace Failure

/-- A text with something before its first line, and blanks of the same width before the others. -/
def hanging (lead : String) (text : String) : String :=
  let blanks := String.ofList (List.replicate lead.length ' ')
  lead ++ String.intercalate ("\n" ++ blanks) (text.splitOn "\n") ++ "\n"

def causeLines : List String → List String
  | [] => []
  | [cause] => [hanging "    " cause]
  | causes => causes.zipIdx.map fun (cause, k) => hanging s!"    {k}: " cause

def text (f : Failure) : String :=
  let causes :=
    if f.causes.isEmpty then "" else "\nCaused by:\n" ++ String.join (causeLines f.causes)
  s!"Error: {f.message}\n" ++ causes

def reply (f : Failure) : Reply := ⟨1, "", f.text⟩

end Failure

inductive SettingsFile where
  | missing
  | unreadable (e : FileFault)
  | octets (bytes : List UInt8)

def SettingsFile.at (files : Files) (path : String) : SettingsFile :=
  match files.kind? path, files.content? path with
  | some .directory, _ => .unreadable .directory
  | some .program, _ => .unreadable .notText
  | _, some text => .octets text.toUTF8.toList
  | _, none => .missing

inductive TeamSource where
  | simulated (robots seed : Nat)
  | received (group : Address) (scope : UInt32)
  deriving DecidableEq, Repr

inductive Task where
  | answer (r : Reply)
  /-- Talk to the robots of a group. -/
  | shell (s : Settings) (group : Address) (scope : UInt32)
  /-- Listen to the robots of a group and then tell what is known. -/
  | status (s : Settings) (wait : Duration)
  | trails (s : Settings) (source : TeamSource) (showRate : Bool)

/-- What is told of a robot and of its store, as far as the table of the store can be drawn. -/
def statusReply (s : Settings) (latest : Option StatusEntry) (now : Instant) : Reply :=
  let statistics := (statsTable latest now).text ++ "\n"
  let store := (Store.ofEntries s.store).table
  match store.text? with
  | some text => ⟨0, statistics ++ text ++ "\n", ""⟩
  | none => ⟨101, statistics ++ store.begun, ""⟩

/-! Values of options -/

def textOption? (options : List (String × Value)) (o : Named) : Option String :=
  match options.lookup o.name with
  | some (.text s) => some s
  | _ => none

def numberOption? (options : List (String × Value)) (o : Named) : Option Nat :=
  match options.lookup o.name with
  | some (.number n) => some n
  | _ => none

def isGiven (options : List (String × Value)) (o : Named) : Bool := (options.lookup o.name).isSome

/-- The settings of a file; one that is missing leaves the standard settings. -/
def load (path : String) : SettingsFile → Except Failure Settings
  | .missing => .ok .standard
  | .unreadable e => .error (unread e)
  | .octets bytes =>
    match Settings.ofOctets bytes with
    | .ok s => .ok s
    | .error (.unreadable e) => .error (unread e)
    | .error .badSyntax => .error (unfit "TOML parse error")
    | .error (.misfit m) => .error (unfit s!"TOML parse error: {m.message}")
where
  unread (e : FileFault) : Failure :=
    ⟨s!"failed to read configuration from {path}", [e.message]⟩
  unfit (cause : String) : Failure :=
    ⟨s!"failed to parse configuration from {path}", [cause]⟩

def filePath (options : List (String × Value)) : String :=
  (textOption? options configOption).getD defaultFile

def settingsPath (words : List String) : String :=
  match grammar.read (words.map String.toList) with
  | .run _ _ options => filePath options
  | _ => defaultFile

def filterReply (f : LogFilter.Fault) : Reply :=
  if f = .splitsCharacter then .brokenOff
  else (⟨"invalid log level", f.causes⟩ : Failure).reply

def settings (file : String → SettingsFile) (options : List (String × Value)) :
    Except Reply Settings :=
  match (textOption? options logOption).bind LogFilter.fault? with
  | some f => .error (filterReply f)
  | none =>
    let path := filePath options
    match load path (file path) with
    | .error f => .error f.reply
    | .ok s =>
      .ok (s.override (textOption? options interfaceOption)
        ((numberOption? options channelOption).map Nat.toUInt32))

/-- What a command is to do, where `index?` finds the network interfaces of the machine. -/
def commandTask (index? : String → Option UInt32) (name : String)
    (options : List (String × Value)) (s : Settings) : Task :=
  let resolved := Radio.resolve index? s.network.channel s.network.interface
  match name, resolved with
  | "status", .ok _ =>
    let wait := (numberOption? options waitOption).getD defaultWaitMillis
    .status s (.ofMillis wait)
  | "status", .error _ => .answer (statusReply s none 0)
  | "trails", resolved =>
    let showRate := isGiven options rateOption
    let robots := (numberOption? options robotsOption).getD defaultRobots
    let seed := (numberOption? options seedOption).getD defaultSeed
    if !SnapshotBuffer.fits s.network.snapshotBufferSize SnapshotBuffer.snapshotPlace then
      .answer .brokenOff
    else if isGiven options simulateOption then
      if Simulation.fits robots then .trails s (.simulated robots seed) showRate
      else .answer .brokenOff
    else
      match resolved with
      | .ok (group, scope) => .trails s (.received group scope) showRate
      | .error e => .answer (Failure.reply ⟨e.message, []⟩)
  | _, .ok (group, scope) => .shell s group scope
  | _, .error e => .answer (Failure.reply ⟨e.message, []⟩)

/-- What the words of a command line ask for, where `file` finds settings files. -/
def task (index? : String → Option UInt32) (file : String → SettingsFile) (words : List String) :
    Task :=
  match grammar.read (words.map String.toList) with
  | .help text => .answer ⟨0, text, ""⟩
  | .version text => .answer ⟨0, text, ""⟩
  | .nothing help => .answer ⟨2, "", help⟩
  | .refused r => .answer ⟨2, "", r.report⟩
  | .run c _ options =>
    match settings file options with
    | .error r => .answer r
    | .ok s => commandTask index? c.name options s

end RobotConsole.Console
