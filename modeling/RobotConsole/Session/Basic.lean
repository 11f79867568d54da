import RobotConsole.Session.Notice
import RobotConsole.Shell.Outcome

/-!
A session of the shell.  Lines are taken in order: one that is a command is carried out, and one
that is not leads to a remark.  A display without a limit takes the next line as the sign to stop,
whatever it says.  The session ends with its lines or when it is told to quit; and it breaks off at a
display that cannot go on.
-/

namespace RobotConsole

inductive Continuation where
  | nextLine
  /-- The next line is taken but not read. -/
  | skipLine
  | leave
  deriving DecidableEq, Repr

structure Response where
  notices : List Notice
  /-- The primitive that it is attempted to send. -/
  attempt : Option Primitive
  /-- How the session goes on; `none` where it breaks off. -/
  next : Option Continuation

inductive Ending where
  /-- It has said goodbye, and these lines were not taken. -/
  | completed (unread : List String)
  /-- The program has ended at a display. -/
  | brokenOff
  deriving DecidableEq, Repr

structure Transcript where
  notices : List Notice
  /-- The primitives that were attempted to be sent, in order. -/
  attempts : List Primitive
  ending : Ending

namespace Transcript

def after (t : Transcript) (r : Response) : Transcript :=
  { t with
    notices := .prompt :: r.notices ++ t.notices
    attempts := r.attempt.toList ++ t.attempts }

def output (t : Transcript) : String := String.join (t.notices.map Notice.text)

end Transcript

namespace Session

variable (s : Surroundings)

def remark (text : String) : Response := ⟨[.remark text], none, some .nextLine⟩

def send (line : Nat) (p : Primitive) (message : String) : Response :=
  let notice := match s.sendFailure line p with
    | some f => Notice.notSent f
    | none => Notice.sent message
  ⟨[notice], some p, some .nextLine⟩

/-- Shows a table until the display has drawn all it may, or the next line comes. -/
def display (line : Nat) (limit : Option Nat) (table : Instant → BoxTable) : Response :=
  let (texts, brokenOff) := s.frames line limit table
  let frames := texts.map (Notice.frame limit.isNone)
  let (notices, next) := match limit with
    | some _ => (frames, Continuation.nextLine)
    | none => (.displayHint :: frames, .skipLine)
  ⟨notices, none, if brokenOff then none else some next⟩

def restart : Response :=
  match s.restartCommand with
  | none => ⟨[.noRestartCommand], none, some .nextLine⟩
  | some command => ⟨[.restart (s.runCommand command)], none, some .nextLine⟩

def carryOut (line : Nat) (c : ShellCommand) : Response :=
  match c.outcome .standard with
  | .error e => remark e.message
  | .ok (.send p message) => send s line p message
  | .ok (.showStats limit) => display s line limit fun now => statsTable (s.latestStatus now) now
  | .ok (.showConfig limit) => display s line limit fun _ => s.store.table
  | .ok .restart => restart s
  | .ok .quit => ⟨[], none, some .leave⟩

def respond (line : Nat) (text : String) : Response :=
  match ShellLine.read text with
  | .empty => ⟨[], none, some .nextLine⟩
  | .help text => remark text
  | .invalid text => remark text
  | .command c => carryOut s line c

/-- The transcript where no line is left. -/
def ended : Transcript := ⟨[.prompt, .endOfInput, .farewell], [], .completed []⟩

/-- The transcript of lines before which so many were taken. -/
def runFrom (taken : Nat) : List String → Transcript
  | [] => ended
  | text :: rest =>
    let r := respond s taken text
    match r.next, rest with
    | none, _ => Transcript.after ⟨[], [], .brokenOff⟩ r
    | some .leave, rest => Transcript.after ⟨[.farewell], [], .completed rest⟩ r
    | some .nextLine, rest => (runFrom (taken + 1) rest).after r
    | some .skipLine, [] => ended.after r
    | some .skipLine, _ :: rest => (runFrom (taken + 2) rest).after r

def run (lines : List String) : Transcript :=
  let t := runFrom s 0 lines
  { t with notices := .greeting :: t.notices }

end Session
end RobotConsole
