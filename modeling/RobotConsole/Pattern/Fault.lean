/-!
What is wrong with a regular expression, and the report that points to it.  A span of the expression
is underlined in the line where it stands; in an expression of several lines the lines are numbered,
and a span over more than one of them is told in words.
-/

namespace RobotConsole.Pattern

/-- A place in an expression; lines and columns count from one. -/
structure Place where
  line : Nat
  column : Nat
  deriving DecidableEq, Repr

/-- From a place up to, and without, another. -/
structure Span where
  first : Place
  stop : Place
  deriving DecidableEq, Repr

inductive Fault where
  | classEscapeInvalid
  | classRangeInvalid
  | classRangeLiteral
  | classUnclosed
  | decimalInvalid
  | escapeHexEmpty
  | escapeHexInvalid
  | escapeHexInvalidDigit
  | escapeIncomplete
  | escapeUnrecognized
  | flagDanglingNegation
  | flagDuplicate
  | flagRepeatedNegation
  | flagMissing
  | flagUnrecognized
  | groupNameDuplicate
  | groupNameEmpty
  | groupNameInvalid
  | groupNameUnclosed
  | groupUnclosed
  | groupUnopened
  | repetitionCountInvalid
  | repetitionCountEmpty
  | repetitionCountUnclosed
  | repetitionMissing
  | wordEdgeUnclosed
  | wordEdgeUnrecognized
  | wordEdgeIncomplete
  | propertyInvalid
  | unsupportedBackreference
  | unsupportedLookAround
  /-- Properties are not known to the reader, and neither are the cases of letters. -/
  | propertyUnknown
  | characterClassUnknown
  | letterCaseUnknown
  | unicodeNotAllowed
  | matchesBrokenText
  deriving DecidableEq, Repr

def Fault.message : Fault → String
  | .classEscapeInvalid => "invalid escape sequence found in character class"
  | .classRangeInvalid => "invalid character class range, the start must be <= the end"
  | .classRangeLiteral => "invalid range boundary, must be a literal"
  | .classUnclosed => "unclosed character class"
  | .decimalInvalid => "decimal literal invalid"
  | .escapeHexEmpty => "hexadecimal literal empty"
  | .escapeHexInvalid => "hexadecimal literal is not a Unicode scalar value"
  | .escapeHexInvalidDigit => "invalid hexadecimal digit"
  | .escapeIncomplete => "incomplete escape sequence, reached end of pattern prematurely"
  | .escapeUnrecognized => "unrecognized escape sequence"
  | .flagDanglingNegation => "dangling flag negation operator"
  | .flagDuplicate => "duplicate flag"
  | .flagRepeatedNegation => "flag negation operator repeated"
  | .flagMissing => "expected flag but got end of regex"
  | .flagUnrecognized => "unrecognized flag"
  | .groupNameDuplicate => "duplicate capture group name"
  | .groupNameEmpty => "empty capture group name"
  | .groupNameInvalid => "invalid capture group character"
  | .groupNameUnclosed => "unclosed capture group name"
  | .groupUnclosed => "unclosed group"
  | .groupUnopened => "unopened group"
  | .repetitionCountInvalid => "invalid repetition count range, the start must be <= the end"
  | .repetitionCountEmpty => "repetition quantifier expects a valid decimal"
  | .repetitionCountUnclosed => "unclosed counted repetition"
  | .repetitionMissing => "repetition operator missing expression"
  | .wordEdgeUnclosed =>
    "special word boundary assertion is either unclosed or contains an invalid character"
  | .wordEdgeUnrecognized =>
    "unrecognized special word boundary assertion, valid choices are: start, end, start-half or " ++
      "end-half"
  | .wordEdgeIncomplete =>
    "found either the beginning of a special word boundary or a bounded repetition on a \\b with " ++
      "an opening brace, but no closing brace"
  | .propertyInvalid => "invalid Unicode character class"
  | .unsupportedBackreference => "backreferences are not supported"
  | .unsupportedLookAround => "look-around, including look-ahead and look-behind, is not supported"
  | .propertyUnknown => "Unicode property not found"
  | .characterClassUnknown =>
    "Unicode-aware Perl class not found (make sure the unicode-perl feature is enabled)"
  | .letterCaseUnknown =>
    "Unicode-aware case insensitivity matching is not available (make sure the unicode-case " ++
      "feature is enabled)"
  | .unicodeNotAllowed => "Unicode not allowed here"
  | .matchesBrokenText => "pattern can match invalid UTF-8"

/-- A fault, where it is, and the other place that it concerns if there is one. -/
structure Refusal where
  fault : Fault
  span : Span
  other : Option Span
  deriving DecidableEq, Repr

namespace Span

def isOneLine (s : Span) : Bool := s.first.line = s.stop.line

/-- Whether a span comes before another, by its first place and then by its last. -/
def precedes (s t : Span) : Bool :=
  let key (s : Span) := [s.first.line, s.first.column, s.stop.line, s.stop.column]
  !(key t).lex (key s) fun m n => m < n

end Span

/-- The lines of an expression; a carriage return before a line feed belongs to the line's end. -/
def lines (pattern : String) : List String :=
  let parts := pattern.splitOn "\n"
  let ended := parts.dropLast.map fun l => if l.endsWith "\r" then (l.dropEnd 1).toString else l
  ended ++ parts.getLast?.toList.filter (· ≠ "")

/-- Marks under a line, where `column` is the first one not passed yet. -/
def marks (column : Nat) : List Span → List Char
  | [] => []
  | s :: rest =>
    let width := max 1 (s.stop.column - s.first.column)
    List.replicate (s.first.column - column) ' ' ++ List.replicate width '^' ++
      marks (max column s.first.column + width) rest

def blanks (n : Nat) : String := String.ofList (List.replicate n ' ')

namespace Refusal

def spans (r : Refusal) : List Span :=
  (r.span :: r.other.toList).mergeSort Span.precedes

def markedLines (r : Refusal) (pattern : String) : String :=
  let all := lines pattern
  let count := if pattern.endsWith "\n" then all.length + 1 else all.length
  let width := if count ≤ 1 then 0 else (toString count).length
  String.join (all.zipIdx.map fun (line, k) =>
    let number := toString (k + 1)
    let lead := if width = 0 then blanks 4 else blanks (width - number.length) ++ number ++ ": "
    let here := r.spans.filter fun s => s.isOneLine && s.first.line = k + 1
    let under :=
      if here.isEmpty then ""
      else blanks (if width = 0 then 4 else width + 2) ++ String.ofList (marks 1 here) ++ "\n"
    lead ++ line ++ "\n" ++ under)

def divider : String := String.ofList (List.replicate 79 '~')

def spanNote (s : Span) : String :=
  let lastColumn := s.stop.column - 1
  s!"on line {s.first.line} (column {s.first.column}) through line {s.stop.line} " ++
    s!"(column {lastColumn})"

def report (r : Refusal) (pattern : String) : String :=
  let body := r.markedLines pattern
  if pattern.contains '\n' then
    let notes := (r.spans.filter fun s => !s.isOneLine).map spanNote
    let notes := if notes.isEmpty then "" else String.intercalate "\n" notes ++ "\n"
    s!"regex parse error:\n{divider}\n{body}{divider}\n{notes}error: {r.fault.message}"
  else s!"regex parse error:\n{body}error: {r.fault.message}"

end Refusal
end RobotConsole.Pattern
