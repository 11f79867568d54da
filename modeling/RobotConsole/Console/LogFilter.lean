import RobotConsole.Binary.Numeral
import RobotConsole.Pattern.Meaning
import RobotConsole.Text.Alphanumeric
import RobotConsole.Text.Blank
import RobotConsole.Text.Integer
import RobotConsole.Text.Utf8

/-!
Log filters.  A filter is a list of directives with commas between them; a directive is a level, or
a target with an optional span, fields of the span, and a level for all of them.  Its parts are cut
out by their octets, which are counted in the directive without the blanks around it but cut out of
the directive as it is, so that blanks before it shift every part.
-/

namespace RobotConsole.LogFilter

inductive Fault where
  | badDirective
  | badLevel
  /-- The value of a field is an expression that cannot be used. -/
  | badPattern (pattern : String) (o : Pattern.Obstacle)
  /-- A part of a directive would begin or end within a character. -/
  | splitsCharacter
  deriving DecidableEq, Repr

def levelNames : List String := ["off", "error", "warn", "info", "debug", "trace"]

namespace Fault

def levelMessage : String :=
  let names := String.intercalate ", " (levelNames.map fun n => "\"" ++ n ++ "\"")
  s!"error parsing level filter: expected one of {names}, or a number 0-5"

def wordEdgeMessage : String :=
  "unsupported regex feature for DFAs: cannot build DFAs for regexes with Unicode word " ++
    "boundaries; switch to ASCII word boundaries, or heuristically enable Unicode word " ++
    "boundaries or use a different regex engine"

/-- What is told of an expression, the reason for each line in the next. -/
def patternCauses (pattern : String) : Pattern.Obstacle → List String
  | .refused r => ["error building NFA", "error parsing regex", r.report pattern]
  | .wordEdges => [wordEdgeMessage]

/-- What is told of a fault: a level is both a fault of its own and one of its directive, and so is an
expression. -/
def causes : Fault → List String
  | .badDirective => ["invalid filter directive"]
  | .badLevel => [levelMessage, levelMessage]
  | .badPattern pattern o =>
    let causes := patternCauses pattern o
    s!"invalid field filter: {causes.headD pattern}" :: causes
  | .splitsCharacter => []

end Fault

/-- A level by its number, or its name in any case; an empty one stands for a level too. -/
def isLevel (cs : List Char) : Bool :=
  match Text.readNatural (2 ^ 64 - 1) cs with
  | .ok n => n < levelNames.length
  | .error _ => cs = [] || levelNames.any fun n => n.toList = cs.map Char.toLower

/-! Parts -/

def dropOctets : Nat → List Char → Except Fault (List Char)
  | 0, cs => .ok cs
  | _, [] => .ok []
  | n, c :: cs =>
    if c.utf8Size ≤ n then dropOctets (n - c.utf8Size) cs else .error .splitsCharacter

def takeOctets : Nat → List Char → Except Fault (List Char)
  | 0, _ => .ok []
  | _, [] => .ok []
  | n, c :: cs =>
    if c.utf8Size ≤ n then (takeOctets (n - c.utf8Size) cs).map (c :: ·)
    else .error .splitsCharacter

/-- The part of a text between two of its octets. -/
def between (text : List Char) (first stop : Nat) : Except Fault (List Char) := do
  takeOctets (stop - first) (← dropOctets first text)

def checkLevel (text : List Char) (first : Nat) : Except Fault Unit := do
  if isLevel (← dropOctets first text) then return () else .error .badLevel

/-- The value that a field is compared with: a truth value, a number, or an expression. -/
def checkValue (cs : List Char) : Except Fault Unit :=
  if String.ofList cs ∈ ["true", "false"] then .ok ()
  else if ((Binary.ofChars? cs : Option Double)).isSome then .ok ()
  else
    match Pattern.obstacle? cs with
    | some o => .error (.badPattern (String.ofList cs) o)
    | none => .ok ()

def checkField (cs : List Char) : Except Fault Unit :=
  if cs = [] then .error .badDirective
  else
    match cs.dropWhile (· ≠ '=') with
    | [] => .ok ()
    | _ :: value => checkValue (value.takeWhile (· ≠ '='))

/-! Directives -/

/-- Where a reader of a directive is, and the octet with which the part there begins. -/
inductive Place where
  | start
  | target
  | span (first : Nat)
  | field (first : Nat)
  | afterFields
  | afterSpan

/-- A letter or digit, or a mark that names may begin with. -/
def beginsTarget (c : Char) : Bool :=
  Text.isAlphanumeric c || c = '-' || c = ':' || c = '_'

/-- Checks the rest of a directive, of which `text` is the whole as it was written and `k` octets are
read. -/
def checkFrom (text : List Char) (p : Place) (k : Nat) : List Char → Except Fault Unit
  | [] =>
    match p with
    | .target => .ok ()
    | .afterSpan => .ok ()
    | _ => .error .badDirective
  | c :: cs =>
    let next := k + c.utf8Size
    match p with
    | .start =>
      if c = '[' then checkFrom text (.span next) next cs
      else if beginsTarget c then checkFrom text .target next cs
      else .error .badDirective
    | .target =>
      if c = '=' then do
        let _ ← between text 0 k
        checkLevel text next
      else if c = '[' then do
        let _ ← between text 0 k
        checkFrom text (.span next) next cs
      else checkFrom text .target next cs
    | .span first =>
      if c = ']' then do
        let _ ← between text first k
        checkFrom text .afterSpan next cs
      else if c = '\x7b' then do
        let _ ← between text first k
        checkFrom text (.field next) next cs
      else checkFrom text (.span first) next cs
    | .field first =>
      if c = '\x7d' then do
        checkField (← between text first k)
        checkFrom text .afterFields next cs
      else checkFrom text (.field first) next cs
    | .afterFields =>
      if c = ']' then checkFrom text .afterSpan next cs else .error .badDirective
    | .afterSpan => if c = '=' then checkLevel text next else .error .badDirective

def check (directive : List Char) : Except Fault Unit :=
  checkFrom directive .start 0 (Text.trim directive)

def fault? (filter : String) : Option Fault :=
  let directives := (filter.toList.splitOn ',').filter (· ≠ [])
  directives.findSome? fun d =>
    match check d with
    | .error f => some f
    | .ok _ => none

end RobotConsole.LogFilter
