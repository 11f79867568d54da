import RobotConsole.Restart.Condition
import RobotConsole.Restart.Expansion
import RobotConsole.Restart.Writing

/-!
The programs of an ordinary system, as far as a script can tell what they do.
-/

namespace RobotConsole.Restart.Program

/-- The words that are not options. -/
def operands (words : List String) : List String :=
  match words.dropWhile fun w => w.startsWith "-" && w ≠ "-" && w ≠ "--" with
  | "--" :: rest => rest
  | rest => rest

def letters (words : List String) : List Char :=
  (words.takeWhile fun w => w.startsWith "-" && w ≠ "-" && w ≠ "--").flatMap fun w => w.toList.drop 1

def optionsAndRest (words : List String) : List Char × List String := (letters words, operands words)

/-- Whether a word is a span of time. -/
def isSpan (word : String) : Bool :=
  let (whole, rest) := word.toList.span Char.isDigit
  let (part, rest) := (match rest with
    | '.' :: rest => rest.span Char.isDigit
    | rest => ([], rest))
  !(whole.isEmpty && part.isEmpty) && rest ∈ [[], ['s'], ['m'], ['h'], ['d']]

/-- The text of what is read: files, or what comes in where there are none. -/
def reads (paths : List String) : Act (String × Bool) := do
  let s ← get
  if paths.isEmpty then
    set { s with input := [] }
    return (String.ofList s.input, true)
  else
    let texts := paths.map s.files.content?
    return ("".intercalate (texts.filterMap id), texts.all Option.isSome)

def linesOf (text : String) : List String :=
  match (text.splitOn "\n").reverse with
  | "" :: rest => rest.reverse
  | all => all.reverse

/-- What `expr` writes; `none` if its words make no sense. -/
def calculated (words : List String) : Option String :=
  match words with
  | [] => none
  | [a] => some a
  | ["length", a] => some (toString a.length)
  | words =>
    let signs := ["+", "-", "*", "/", "%", "(", ")", "=", "==", "!=", "<", "<=", ">", ">=", "|", "&"]
    let known := words.all fun w => w ∈ signs || (Sum.decimal? w).isSome
    if known then
      let text := " ".intercalate (words.map fun w =>
        if w = "=" then "==" else if w = "|" then "||" else if w = "&" then "&&" else w)
      ((Sum.read? text.toList).bind fun a => (Sum.evaluate (fun _ => none) a).run []).map fun r =>
        toString r.1
    else
      match words with
      | [a, sign, b] =>
        let answer (h : Bool) : Option String := some (if h then "1" else "0")
        match sign with
        | "=" | "==" => answer (a = b)
        | "!=" => answer (a ≠ b)
        | "<" => answer (a < b)
        | "<=" => answer (a ≤ b)
        | ">" => answer (a > b)
        | ">=" => answer (a ≥ b)
        | "|" => some (if a = "" ∨ a = "0" then b else a)
        | "&" => some (if a = "" ∨ a = "0" ∨ b = "" ∨ b = "0" then "0" else a)
        | _ => none
      | _ => none

/-- Writes numbers that follow each other. -/
def counted (words : List String) : Act Unit := do
  let numbers := words.map Sum.decimal?
  match numbers with
  | [some b] => counts 1 b
  | [some a, some b] => counts a b
  | _ => Act.setStatus 1
where
  counts (a b : Int) : Act Unit := do
    for i in List.range (b - a + 1).toNat do Act.write (toString (a + i) ++ "\n")
    Act.setStatus 0

def remove (forced : Bool) (paths : List String) : Act Unit := do
  if paths.isEmpty && !forced then Act.setStatus 1
  else
    Act.setStatus 0
    for path in paths do
      let s ← get
      match s.files.kind? path with
      | some .regular => set { s with files := s.files.remove path }
      | some _ =>
        if s.files.made.contains (s.files.resolve path) then set { s with files := s.files.remove path }
        else Act.setStatus 1
      | none => if !forced then Act.setStatus 1

/-- Makes a file or a directory at each path, if the directory for it is there. -/
def make (directories withParents : Bool) (paths : List String) : Act Unit := do
  if paths.isEmpty then Act.setStatus 1
  else
    Act.setStatus 0
    for path in paths do
      let s ← get
      match s.files.kind? path with
      | some _ => if directories && !withParents then Act.setStatus 1
      | none =>
        if s.files.hasPlaceFor path || withParents then
          set { s with
            files := if directories then s.files.makeDirectory path else s.files.write path "" }
        else Act.setStatus 1

/-- Looks for a text without wildcards in lines. -/
def search (words : List String) : Act Unit := do
  let options := letters words
  match operands words with
  | [] => Act.setStatus 2
  | wanted :: paths =>
    let (text, found) ← reads paths
    let isIn (line : String) : Bool := (line.splitOn wanted).length > 1
    let hits := (linesOf text).filter fun line => isIn line != options.contains 'v'
    if !options.contains 'q' then
      if options.contains 'c' then Act.write (toString hits.length ++ "\n")
      else for line in hits do Act.write (line ++ "\n")
    Act.setStatus (if !found then 2 else if hits.isEmpty then 1 else 0)

def count (words : List String) : Act Unit := do
  let options := letters words
  let (text, found) ← reads (operands words)
  let lines := (text.toList.filter (· = '\n')).length
  let all := [('l', lines), ('w', (text.split Char.isWhitespace).toList.filter (!·.isEmpty) |>.length),
    ('c', text.utf8ByteSize)]
  let asked := if options.isEmpty then all else all.filter fun e => e.1 ∈ options
  Act.write (" ".intercalate (asked.map fun e => toString e.2) ++ "\n")
  Act.ofBool found

/-- Writes the first lines or the last ones, ten unless told otherwise. -/
def excerpt (fromEnd : Bool) (words : List String) : Act Unit := do
  let (n, paths) := match words with
    | "-n" :: n :: paths => (n.toNat?.getD 10, paths)
    | w :: paths =>
      match w.toList with
      | '-' :: 'n' :: cs => ((String.ofList cs).toNat?.getD 10, paths)
      | '-' :: cs => ((String.ofList cs).toNat?.getD 10, paths)
      | _ => (10, w :: paths)
    | [] => (10, [])
  let (text, found) ← reads paths
  let lines := linesOf text
  for line in if fromEnd then lines.drop (lines.length - n) else lines.take n do
    Act.write (line ++ "\n")
  Act.ofBool found

def placeOf (path : String) : String :=
  let names := (path.splitOn "/").filter (· ≠ "")
  let before := "/".intercalate names.dropLast
  if path.startsWith "/" then "/" ++ before else if before = "" then "." else before

def lastName (path : String) : String :=
  let names := (path.splitOn "/").filter (· ≠ "")
  names.getLast?.getD (if path.startsWith "/" then "/" else "")

/-- Runs the programs that do not run others. -/
def run (name : String) (words : List String) : Act Unit := do
  match name with
  | "true" => Act.setStatus 0
  | "false" => Act.setStatus 1
  | "sleep" => Act.ofBool (!words.isEmpty && words.all isSpan)
  | "echo" => do
    Act.write (Writing.echo words)
    Act.setStatus 0
  | "printf" =>
    match words with
    | [] => Act.setStatus 1
    | format :: arguments => do
      let (text, ok) := Writing.printf format arguments
      Act.write text
      Act.ofBool ok
  | "test" => checks words
  | "[" => if words.getLast? = some "]" then checks words.dropLast else Act.setStatus 2
  | "cat" => do
    let (text, found) ← reads ((operands words).filter (· ≠ "-"))
    Act.write text
    Act.ofBool found
  | "seq" => counted words
  | "expr" =>
    match calculated words with
    | some text => do
      Act.write (text ++ "\n")
      Act.ofBool (text ≠ "" ∧ text ≠ "0")
    | none => Act.setStatus 2
  | "rm" => remove ((letters words).contains 'f') (operands words)
  | "touch" => make false false (operands words)
  | "mkdir" => make true ((letters words).contains 'p') (operands words)
  | "ls" => do
    let s ← get
    Act.setStatus (if (operands words).all fun p => (s.files.kind? p).isSome then 0 else 2)
  | "grep" => search words
  | "pwd" => do
    Act.write (Files.text (← get).files.place ++ "\n")
    Act.setStatus 0
  | "basename" => do
    Act.write (lastName ((operands words).headD "") ++ "\n")
    Act.ofBool !(operands words).isEmpty
  | "dirname" => do
    Act.write (placeOf ((operands words).headD "") ++ "\n")
    Act.ofBool !(operands words).isEmpty
  | "wc" => count words
  | "head" => excerpt false words
  | "tail" => excerpt true words
  | "rmdir" => remove false words
  | "which" => Act.ofBool (words.all fun w => w ∈ Files.programs)
  | _ => Act.setStatus 0
where
  checks (words : List String) : Act Unit := do
    match Condition.check (← get).files words with
    | some b => Act.ofBool b
    | none => Act.setStatus 2

end RobotConsole.Restart.Program
