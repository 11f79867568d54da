import RobotConsole.Pattern.Escape
import RobotConsole.Power
import RobotConsole.Text.Alphanumeric

/-!
Reading a regular expression.  The reader gives the parts that its meaning may depend on, in their
order, or the first fault.
-/

namespace RobotConsole.Pattern

/-- What changes how the rest of a group is read. -/
inductive Flag where
  | caseless
  | multiLine
  | dotMatchesAll
  | swapGreed
  | unicode
  | windowsLines
  | spaced
  deriving DecidableEq, Repr

def Flag.letters : List (Char × Flag) :=
  [('i', .caseless), ('m', .multiLine), ('s', .dotMatchesAll), ('U', .swapGreed), ('u', .unicode),
    ('R', .windowsLines), ('x', .spaced)]

/-- A flag, or the mark before the flags that are switched off. -/
abbrev FlagItem := Option Flag × Span

def flagState? (f : Flag) (items : List FlagItem) : Option Bool :=
  let on := items.takeWhile fun (i, _) => i.isSome
  if on.any fun (i, _) => i = some f then some true
  else if items.any fun (i, _) => i = some f then some false
  else none

inductive Part where
  | atom (a : Atom)
  /-- An atom within a class. -/
  | member (a : Atom)
  /-- A class of ASCII characters by its name, within a class. -/
  | namedMember (s : Span)
  /-- The end of a class, which may mean the other characters. -/
  | classEnd (others : Bool) (s : Span)
  | flags (items : List FlagItem)
  | groupStart (items : List FlagItem)
  | groupEnd

structure OpenGroup where
  span : Span
  /-- Whether blanks had no meaning before it. -/
  spaced : Bool

structure Reader where
  cursor : Cursor
  spaced : Bool
  /-- The innermost first. -/
  groups : List OpenGroup
  names : List (String × Span)
  /-- Whether something comes before that can be repeated. -/
  hasOperand : Bool
  /-- The parts read, the last first. -/
  parts : List Part

namespace Reader

def start (cs : List Char) : Reader := ⟨.start cs, false, [], [], false, []⟩

def withPart (r : Reader) (part : Part) (c : Cursor) (hasOperand : Bool) : Reader :=
  { r with cursor := c, parts := part :: r.parts, hasOperand := hasOperand }

/-! Groups -/

def isNameChar (first : Bool) (c : Char) : Bool :=
  if first then c = '_' || (Text.isAlphanumeric c && !c.isDigit)
  else c = '_' || c = '.' || c = '[' || c = ']' || Text.isAlphanumeric c

/-- The letters of a group's name in reverse, and the cursor at the bracket that ends it. -/
def groupName (name : List Char) : (room : Nat) → Cursor → Read (List Char × Cursor)
  | 0, c => refuse .groupNameUnclosed c.here
  | room + 1, c =>
    match c.peek? with
    | none => refuse .groupNameUnclosed c.here
    | some d =>
      if d = '>' then .ok (name, c)
      else if isNameChar name.isEmpty d then groupName (d :: name) room c.next
      else refuse .groupNameInvalid c.one

def namedGroup (r : Reader) (openSpan : Span) (c : Cursor) : Read Reader := do
  let (name, after) ← groupName [] (c.rest.length + 1) c
  let span := after.since c.place
  let name := String.ofList name.reverse
  if name = "" then refuse .groupNameEmpty c.here
  else
    match r.names.lookup name with
    | some other => .error ⟨.groupNameDuplicate, span, some other⟩
    | none =>
      return { r with
        cursor := after.next, names := (name, span) :: r.names, hasOperand := false
        groups := ⟨openSpan, r.spaced⟩ :: r.groups, parts := .groupStart [] :: r.parts }

/-- Flags in reverse up to a colon or bracket, `items` being those before. -/
def flagItems (items : List FlagItem) : (room : Nat) → Cursor → Read (List FlagItem × Cursor)
  | 0, c => refuse .flagMissing c.here
  | room + 1, c =>
    match c.peek? with
    | none => refuse .flagMissing c.here
    | some d =>
      if d = ':' ∨ d = ')' then
        match items with
        | (none, s) :: _ => refuse .flagDanglingNegation s
        | _ => .ok (items, c)
      else
        let item : Option (Option Flag) :=
          if d = '-' then some none else (Flag.letters.lookup d).map some
        match item with
        | none => refuse .flagUnrecognized c.one
        | some item =>
          match items.find? fun (i, _) => i = item with
          | some (_, other) =>
            .error ⟨if item.isNone then .flagRepeatedNegation else .flagDuplicate, c.one, some other⟩
          | none => flagItems ((item, c.one) :: items) room c.next

/-- A group with flags, or flags for the rest of the group, after the question mark. -/
def flagGroup (r : Reader) (openSpan : Span) (question : Span) (c : Cursor) : Read Reader :=
  if c.atEnd then refuse .groupUnclosed openSpan
  else do
    let (items, after) ← flagItems [] (c.rest.length + 1) c
    let items := items.reverse
    let spaced := (flagState? .spaced items).getD r.spaced
    if after.peek? = some ')' then
      if items.isEmpty then refuse .repetitionMissing question
      else return { r.withPart (.flags items) after.next false with spaced := spaced }
    else
      return { r with
        cursor := after.next, spaced := spaced, hasOperand := false
        groups := ⟨openSpan, r.spaced⟩ :: r.groups, parts := .groupStart items :: r.parts }

def lookArounds : List String := ["?=", "?!", "?<=", "?<!"]

def openGroup (r : Reader) : Read Reader :=
  let openSpan := r.cursor.one
  let c := r.cursor.next.settle r.spaced
  match lookArounds.findSome? fun t => c.skipText? t with
  | some after => refuse .unsupportedLookAround (after.since openSpan.first)
  | none =>
    match (c.skipText? "?P<").or (c.skipText? "?<") with
    | some after => r.namedGroup openSpan after
    | none =>
      match c.skipText? "?" with
      | some after => r.flagGroup openSpan c.here after
      | none =>
        .ok { r with
          cursor := c, hasOperand := false, groups := ⟨openSpan, r.spaced⟩ :: r.groups
          parts := .groupStart [] :: r.parts }

def closeGroup (r : Reader) : Read Reader :=
  match r.groups with
  | [] => refuse .groupUnopened r.cursor.one
  | g :: rest =>
    .ok { r.withPart .groupEnd r.cursor.next true with groups := rest, spaced := g.spaced }

/-! Repetitions -/

/-- Past a question mark that makes a repetition short. -/
def pastQuestion (c : Cursor) : Cursor := if c.peek? = some '?' then c.next else c

def simpleRepetition (r : Reader) : Read Reader :=
  if r.hasOperand then .ok { r with cursor := pastQuestion r.cursor.next }
  else refuse .repetitionMissing r.cursor.here

/-- The digits of a count and the cursor after them; blanks around them do not matter. -/
def countDigits (spaced : Bool) (c : Cursor) : List Char × Span × Cursor :=
  let skipBlanks (c : Cursor) := (c.rest.takeWhile Text.isBlank).foldl (fun c _ => c.next) c
  let first := skipBlanks c
  let digits := first.rest.takeWhile Char.isDigit
  let after := digits.foldl (fun c _ => c.step spaced) first
  (digits, after.since first.place, skipBlanks after)

def count (spaced : Bool) (c : Cursor) : Read Nat × Cursor :=
  let (digits, span, after) := countDigits spaced c
  if digits.isEmpty then (refuse .repetitionCountEmpty span, after)
  else
    match Text.readNatural (2 ^ 32 - 1) digits with
    | .ok n => (.ok n, after)
    | .error _ => (refuse .decimalInvalid span, after)

/-- A repetition with counts between braces. -/
def countedRepetition (r : Reader) : Read Reader :=
  let brace := r.cursor.place
  let unclosed {α : Type} (c : Cursor) : Read α := refuse .repetitionCountUnclosed (c.since brace)
  let inner := r.cursor.step r.spaced
  if !r.hasOperand then refuse .repetitionMissing r.cursor.here
  else if inner.atEnd then unclosed inner
  else
    let (least, c) := count r.spaced inner
    let finish (inOrder : Bool) (c : Cursor) : Read Reader :=
      if c.peek? = some '\x7d' then
        let after := pastQuestion (c.step r.spaced)
        if inOrder then .ok { r with cursor := after }
        else refuse .repetitionCountInvalid (after.since brace)
      else unclosed c
    if c.atEnd then unclosed c
    else if c.peek? = some ',' then
      let c := c.step r.spaced
      if c.atEnd then unclosed c
      else if c.peek? = some '\x7d' then do
        let _ ← least
        finish true c
      else do
        let n ← least
        let (most, c) := count r.spaced c
        finish (n ≤ (← most)) c
    else do
      let _ ← least
      finish true c

/-! Classes -/

/-- A class that is not closed yet: where its beginning is, and whether it means the others. -/
structure OpenClass where
  span : Span
  others : Bool

/-- The hyphens at the start of a class, which stand for themselves. -/
def hyphens (spaced : Bool) (first : Place) : (room : Nat) → Cursor → Read Cursor
  | 0, c => .ok c
  | room + 1, c =>
    if c.peek? = some '-' then
      let after := c.step spaced
      if after.atEnd then refuse .classUnclosed ⟨first, first⟩ else hyphens spaced first room after
    else .ok c

def openClass (spaced : Bool) (c : Cursor) : Read (OpenClass × Cursor) := do
  let first := c.place
  let c := c.step spaced
  if c.atEnd then refuse .classUnclosed (c.since first)
  else
    let others := c.peek? = some '^'
    let c := if others then c.step spaced else c
    if c.atEnd then refuse .classUnclosed (c.since first)
    else
      let after ← hyphens spaced first c.rest.length c
      if after = c ∧ c.peek? = some ']' then
        let after := c.step spaced
        if after.atEnd then refuse .classUnclosed (after.since first)
        else return (⟨after.since first, others⟩, after)
      else return (⟨after.since first, others⟩, after)

def classNames : List String :=
  ["alnum", "alpha", "ascii", "blank", "cntrl", "digit", "graph", "lower", "print", "punct",
    "space", "upper", "word", "xdigit"]

/-- Past a named class such as that of all digits, if one stands here. -/
def namedClass? (c : Cursor) : Option Cursor := do
  let c ← c.skipText? "[:"
  let c := (c.skipText? "^").getD c
  let name := c.rest.takeWhile (· ≠ ':')
  let c ← (name.foldl (fun c _ => c.next) c).skipText? ":]"
  if String.ofList name ∈ classNames then return c else none

def classAtom (spaced : Bool) (c : Cursor) : Read (Atom × Cursor) :=
  match c.peek? with
  | some '\\' => escape spaced c
  | some d => .ok (.literal d false c.one, c.next)
  | none => refuse .classUnclosed c.here

def memberOf (a : Atom) : Read Part :=
  match a with
  | .anchor s => refuse .classEscapeInvalid s
  | .wordEdge s => refuse .classEscapeInvalid s
  | a => .ok (.member a)

def boundOf (a : Atom) : Read Char :=
  match a with
  | .literal c _ _ => .ok c
  | a => refuse .classRangeLiteral a.span

/-- The character after the next one, and after what has no meaning there. -/
def peekSecond? (spaced : Bool) (c : Cursor) : Option Char := (c.next.settle spaced).peek?

/-- A member of a class, which may be a range, where `unclosed` is told at the end. -/
def classMember (spaced : Bool) (unclosed : Refusal) (c : Cursor) : Read (Part × Cursor) := do
  let (a, c) ← classAtom spaced c
  let c := c.settle spaced
  if c.atEnd then .error unclosed
  else
    let second := peekSecond? spaced c
    if c.peek? ≠ some '-' ∨ second = some ']' ∨ second = some '-' then
      return (← memberOf a, c)
    else
      let c := c.step spaced
      if c.atEnd then .error unclosed
      else
        let (b, c) ← classAtom spaced c
        let span : Span := ⟨a.span.first, b.span.stop⟩
        let low ← boundOf a
        let high ← boundOf b
        if low ≤ high then return (.member (.literal low false span), c)
        else refuse .classRangeInvalid span

def classOperators : List String := ["&&", "--", "~~"]

/-- The members of classes up to the end of the outermost, the innermost class being the first. -/
def classBody (spaced : Bool) (opened : List OpenClass) (parts : List Part) :
    (room : Nat) → Cursor → Read (List Part × Cursor)
  | 0, c => refuse .classUnclosed c.here
  | room + 1, c =>
    let c := c.settle spaced
    match opened with
    | [] => .ok (parts, c)
    | innermost :: outer =>
      let unclosed : Refusal := ⟨.classUnclosed, innermost.span, none⟩
      match c.peek? with
      | none => .error unclosed
      | some '[' =>
        match namedClass? c with
        | some after => classBody spaced opened (.namedMember (after.since c.place) :: parts) room after
        | none => do
          let (inner, after) ← openClass spaced c
          classBody spaced (inner :: opened) parts room after
      | some ']' =>
        let parts := .classEnd innermost.others (c.next.since innermost.span.first) :: parts
        if outer.isEmpty then .ok (parts, c.next) else classBody spaced outer parts room c.next
      | some _ =>
        match classOperators.findSome? fun t => c.skipText? t with
        | some after => classBody spaced opened parts room after
        | none => do
          let (part, after) ← classMember spaced unclosed c
          classBody spaced opened (part :: parts) room after

def bracketed (r : Reader) : Read Reader := do
  let (opened, c) ← openClass r.spaced r.cursor
  let (parts, after) ← classBody r.spaced [opened] r.parts (c.rest.length + 1) c
  return { r with cursor := after, parts := parts, hasOperand := true }

/-! The whole -/

def part (r : Reader) (c : Char) : Read Reader :=
  match c with
  | '(' => r.openGroup
  | ')' => r.closeGroup
  | '|' => .ok { r with cursor := r.cursor.next, hasOperand := false }
  | '[' => r.bracketed
  | '?' => r.simpleRepetition
  | '*' => r.simpleRepetition
  | '+' => r.simpleRepetition
  | '\x7b' => r.countedRepetition
  | '\\' => (escape r.spaced r.cursor).map fun (a, after) => r.withPart (.atom a) after true
  | '.' => .ok (r.withPart (.atom (.dot r.cursor.one)) r.cursor.next true)
  | '^' => .ok (r.withPart (.atom (.anchor r.cursor.one)) r.cursor.next true)
  | '$' => .ok (r.withPart (.atom (.anchor r.cursor.one)) r.cursor.next true)
  | c => .ok (r.withPart (.atom (.literal c false r.cursor.one)) r.cursor.next true)

/-- All parts; each takes a character at least, so that `room` is the number of characters. -/
def run : (room : Nat) → Reader → Read Reader
  | 0, r => .ok r
  | room + 1, r =>
    let c := r.cursor.settle r.spaced
    match c.peek? with
    | none => .ok { r with cursor := c }
    | some d => do run room (← ({ r with cursor := c } : Reader).part d)

end Reader

def parts (cs : List Char) : Read (List Part) := do
  let r ← Reader.run cs.length (.start cs)
  match r.groups with
  | g :: _ => refuse .groupUnclosed g.span
  | [] => return r.parts.reverse

end RobotConsole.Pattern
