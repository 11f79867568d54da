/-!
The files that can be counted on: the directories, devices and programs of an ordinary system, and
what a script has written or removed.
-/

namespace RobotConsole

inductive FileKind where
  | directory
  | device
  | regular
  | program
  deriving DecidableEq, Repr

structure Files where
  /-- The directory that a path starts from if it does not start with a slash. -/
  place : List String := []
  /-- What was written last, by path; `none` where something was removed. -/
  written : List (List String × Option String) := []
  /-- The directories that were made. -/
  made : List (List String) := []

namespace Files

/-- The programs beside those that a shell brings along. -/
def programs : List String :=
  ["true", "false", "sleep", "sh", "dash", "bash", "env", "nice", "nohup", "setsid", "timeout", "expr",
    "test", "[", "echo", "printf", "cat", "seq", "grep", "ls", "touch", "rm", "mkdir", "date",
    "hostname", "uname", "id", "whoami", "pwd", "basename", "dirname", "wc", "head", "tail", "rmdir",
    "which", "sync", "kill"]

def programPlaces : List (List String) := [["bin"], ["usr", "bin"]]

def directories : List (List String) :=
  [[], ["bin"], ["boot"], ["dev"], ["dev", "shm"], ["etc"], ["home"], ["lib"], ["media"], ["mnt"],
    ["opt"], ["proc"], ["root"], ["run"], ["sbin"], ["srv"], ["sys"], ["tmp"], ["usr"], ["usr", "bin"],
    ["usr", "lib"], ["usr", "local"], ["usr", "local", "bin"], ["usr", "sbin"], ["usr", "share"],
    ["var"], ["var", "lib"], ["var", "log"], ["var", "run"], ["var", "tmp"]]

def devices : List (List String) :=
  [["dev", "null"], ["dev", "zero"], ["dev", "full"], ["dev", "random"], ["dev", "urandom"],
    ["dev", "tty"]]

def regulars : List (List String × String) :=
  [(["etc", "passwd"], "root:x:0:0:root:/root:/bin/bash\n"), (["etc", "group"], "root:x:0:\n"),
    (["etc", "shadow"], "root:*:0:0:99999:7:::\n"), (["etc", "hosts"], "127.0.0.1\tlocalhost\n"),
    (["etc", "hostname"], "localhost\n"), (["etc", "resolv.conf"], "nameserver 127.0.0.1\n"),
    (["etc", "os-release"], "ID=linux\n"), (["proc", "self", "status"], "Name:\tsh\n"),
    (["proc", "cpuinfo"], "processor\t: 0\n")]

/-- The names that lead somewhere, starting from the ones given. -/
def walk (place : List String) : List String → List String
  | [] => place
  | name :: names =>
    if name = "" ∨ name = "." then walk place names
    else if name = ".." then walk place.dropLast names
    else walk (place ++ [name]) names

def resolve (f : Files) (path : String) : List String :=
  walk (if path.startsWith "/" then [] else f.place) (path.splitOn "/")

def kindAt? (f : Files) (p : List String) : Option FileKind :=
  if p ∈ f.made then some .directory
  else
    match f.written.lookup p with
    | some (some _) => some .regular
    | some none => none
    | none =>
      if p ∈ directories then some .directory
      else if p ∈ devices then some .device
      else if (regulars.lookup p).isSome then some .regular
      else if p.dropLast ∈ programPlaces ∧ p.getLast?.any fun name => name ∈ programs then
        some .program
      else none

/-- What a path leads to; one that ends in a slash leads to a directory only. -/
def kind? (f : Files) (path : String) : Option FileKind :=
  if path = "" then none
  else (f.kindAt? (f.resolve path)).filter fun k => !path.endsWith "/" || k = .directory

/-- The text that can be read at a path.  That of a program tells nothing. -/
def content? (f : Files) (path : String) : Option String :=
  let p := f.resolve path
  match f.kind? path with
  | some .regular => ((f.written.lookup p).getD (regulars.lookup p)).getD ""
  | some .device | some .program => some ""
  | some .directory | none => none

/-- Whether the directory of a path is there. -/
def hasPlaceFor (f : Files) (path : String) : Bool :=
  path ≠ "" && !path.endsWith "/" && f.kindAt? (f.resolve path).dropLast = some .directory

/-- Writes a text to a path, unless it leads to a device. -/
def write (f : Files) (path text : String) : Files :=
  if f.kind? path = some .device then f
  else { f with written := (f.resolve path, some text) :: f.written }

def remove (f : Files) (path : String) : Files :=
  let p := f.resolve path
  { f with written := (p, none) :: f.written, made := f.made.filter (· ≠ p) }

def makeDirectory (f : Files) (path : String) : Files := { f with made := f.resolve path :: f.made }

def text (p : List String) : String := "/" ++ "/".intercalate p

/-- The directory that a path leads to is the one to start from. -/
def enter? (f : Files) (path : String) : Option Files :=
  if f.kind? path = some .directory then some { f with place := f.resolve path } else none

end Files

end RobotConsole
