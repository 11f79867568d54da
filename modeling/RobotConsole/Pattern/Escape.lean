import RobotConsole.Pattern.Cursor
import RobotConsole.Text.Integer

/-!
Escapes in expressions, from the backslash on.
-/

namespace RobotConsole.Pattern

inductive Atom where
  /-- A character, and whether it was written as the number of an octet beyond ASCII. -/
  | literal (c : Char) (isOctet : Bool) (s : Span)
  | anchor (s : Span)
  /-- An edge of a word. -/
  | wordEdge (s : Span)
  /-- A class of characters known by one letter, and whether it is the others that are meant. -/
  | letterClass (others : Bool) (s : Span)
  | property (s : Span)
  | dot (s : Span)

def Atom.span : Atom → Span
  | .literal _ _ s => s
  | .anchor s => s
  | .wordEdge s => s
  | .letterClass _ s => s
  | .property s => s
  | .dot s => s

/-- The same with its first character somewhere before. -/
def Atom.startingAt (first : Place) : Atom → Atom
  | .literal c o s => .literal c o { s with first := first }
  | .anchor s => .anchor { s with first := first }
  | .wordEdge s => .wordEdge { s with first := first }
  | .letterClass o s => .letterClass o { s with first := first }
  | .property s => .property { s with first := first }
  | .dot s => .dot { s with first := first }

/-- Characters that mean something, and themselves after a backslash. -/
def metaChars : List Char :=
  ['\\', '.', '+', '*', '?', '(', ')', '|', '[', ']', '\x7b', '\x7d', '^', '$', '#', '&', '-', '~']

/-- Characters that may follow a backslash though they mean nothing. -/
def isEscapable (c : Char) : Bool :=
  c ∈ metaChars || (c.toNat < 0x80 && !c.isAlphanum && c ≠ '<' && c ≠ '>')

def namedEscapes : List (Char × Char) :=
  [('a', '\x07'), ('f', '\x0c'), ('t', '\t'), ('n', '\n'), ('r', '\r'), ('v', '\x0b')]

def charOfDigits? (digits : List Char) : Option Char :=
  let n := digits.foldl (fun n c => 16 * n + (Text.hexDigit? c).getD 0) 0
  if n.isValidChar then some (Char.ofNat n) else none

/-- A character from its digits, which stand from `first` up to `stop` before the cursor.  Two digits
may stand for an octet. -/
def literalOfDigits (mayBeOctet : Bool) (digits : List Char) (first stop : Place) (c : Cursor) :
    Read (Atom × Cursor) :=
  match charOfDigits? digits with
  | some d => .ok (.literal d (mayBeOctet && 0x80 ≤ d.toNat) (c.since first), c)
  | none => refuse .escapeHexInvalid ⟨first, stop⟩

/-- So many hexadecimal digits, the first of which stands at the cursor; `digits` came before in
reverse. -/
def fixedHex (spaced : Bool) (first : Place) (digits : List Char) :
    (more : Nat) → Cursor → Read (Atom × Cursor)
  | 0, c => literalOfDigits (digits.length = 2) digits.reverse first c.place c
  | more + 1, c =>
    match c.peek? with
    | none => refuse .escapeIncomplete c.here
    | some d =>
      if (Text.hexDigit? d).isSome then fixedHex spaced first (d :: digits) more (c.step spaced)
      else refuse .escapeHexInvalidDigit c.one

/-- Digits up to a closing brace, where `room` bounds how many characters are left. -/
def bracedHex (spaced : Bool) (brace : Place) (first : Place) (digits : List Char) :
    (room : Nat) → Cursor → Read (Atom × Cursor)
  | 0, c => refuse .escapeIncomplete (c.since brace)
  | room + 1, c =>
    match c.peek? with
    | none => refuse .escapeIncomplete (c.since brace)
    | some d =>
      if d = '\x7d' then
        let after := c.step spaced
        if digits = [] then refuse .escapeHexEmpty (after.since brace)
        else literalOfDigits false digits.reverse first c.place after
      else if (Text.hexDigit? d).isSome then
        bracedHex spaced brace first (d :: digits) room (c.step spaced)
      else refuse .escapeHexInvalidDigit c.one

/-- A character by its number, from the letter that says how many digits it has. -/
def hexEscape (spaced : Bool) (digits : Nat) (c : Cursor) : Read (Atom × Cursor) :=
  let c := c.step spaced
  match c.peek? with
  | none => refuse .escapeIncomplete c.here
  | some '\x7b' =>
    bracedHex spaced c.place c.next.place [] (c.rest.length + 1) (c.step spaced)
  | some _ => fixedHex spaced c.place [] digits c

/-- Past a name up to its closing brace. -/
def pastBrace (spaced : Bool) : (room : Nat) → Cursor → Option Cursor
  | 0, _ => none
  | room + 1, c =>
    match c.peek? with
    | none => none
    | some d => if d = '\x7d' then some c.next else pastBrace spaced room (c.step spaced)

/-- The end of an expression that stops in a name. -/
def endOf (c : Cursor) : Cursor := c.rest.foldl (fun c _ => c.next) c

def propertyEscape (spaced : Bool) (c : Cursor) : Read (Atom × Cursor) :=
  let c := c.step spaced
  match c.peek? with
  | none => refuse .escapeIncomplete c.here
  | some '\x7b' =>
    match pastBrace spaced (c.rest.length + 1) (c.step spaced) with
    | some after => .ok (.property (after.since c.place), after)
    | none => refuse .escapeIncomplete (endOf c).here
  | some '\\' => refuse .propertyInvalid c.one
  | some _ =>
    let after := c.step spaced
    .ok (.property (after.since c.place), after)

def wordEdgeNames : List String := ["start", "end", "start-half", "end-half"]

def isEdgeNameChar (c : Char) : Bool := c.isAlpha || c = '-'

/-- The letters of a name at the cursor, in reverse, and the cursor after them. -/
def edgeName (spaced : Bool) (name : List Char) : (room : Nat) → Cursor → List Char × Cursor
  | 0, c => (name, c)
  | room + 1, c =>
    match c.peek? with
    | some d =>
      if isEdgeNameChar d then edgeName spaced (d :: name) room (c.step spaced) else (name, c)
    | none => (name, c)

/-- An edge of a word, which a name between braces may tell more of. -/
def wordEdge (spaced : Bool) (first : Place) (c : Cursor) : Read (Atom × Cursor) :=
  let plain : Atom × Cursor := (.wordEdge (c.since first), c)
  if c.peek? = some '\x7b' then
    let inner := c.step spaced
    match inner.peek? with
    | none => refuse .wordEdgeIncomplete (inner.since first)
    | some d =>
      if isEdgeNameChar d then
        let (name, after) := edgeName spaced [] inner.rest.length inner
        if after.peek? = some '\x7d' then
          if String.ofList name.reverse ∈ wordEdgeNames then
            .ok (.wordEdge (after.next.since first), after.next)
          else refuse .wordEdgeUnrecognized (after.since inner.place)
        else refuse .wordEdgeUnclosed (after.since c.place)
      else .ok plain
  else .ok plain

def escape (spaced : Bool) (c : Cursor) : Read (Atom × Cursor) :=
  let first := c.place
  let letter := c.next
  match letter.peek? with
  | none => refuse .escapeIncomplete (letter.since first)
  | some d =>
    let after := letter.next
    let span := after.since first
    let from_ (r : Read (Atom × Cursor)) := r.map fun (a, c) => (a.startingAt first, c)
    if d.isDigit then refuse .unsupportedBackreference span
    else
      match d with
      | 'x' => from_ (hexEscape spaced 2 letter)
      | 'u' => from_ (hexEscape spaced 4 letter)
      | 'U' => from_ (hexEscape spaced 8 letter)
      | 'p' => from_ (propertyEscape spaced letter)
      | 'P' => from_ (propertyEscape spaced letter)
      | 'b' => wordEdge spaced first after
      | _ =>
        if d ∈ ['d', 's', 'w'] then .ok (.letterClass false span, after)
        else if d ∈ ['D', 'S', 'W'] then .ok (.letterClass true span, after)
        else if isEscapable d then .ok (.literal d false span, after)
        else if d ∈ ['A', 'z'] then .ok (.anchor span, after)
        else if d ∈ ['B', '<', '>'] then .ok (.wordEdge span, after)
        else
          match namedEscapes.lookup d with
          | some e => .ok (.literal e false span, after)
          | none => refuse .escapeUnrecognized span

end RobotConsole.Pattern
