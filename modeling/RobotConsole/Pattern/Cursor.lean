import RobotConsole.Pattern.Fault
import RobotConsole.Text.Blank

/-!
Going through an expression from its start.  Where blanks have no meaning, they and comments are
passed over.
-/

namespace RobotConsole.Pattern

structure Cursor where
  place : Place
  rest : List Char
  deriving DecidableEq, Repr

namespace Cursor

def start (cs : List Char) : Cursor := ⟨⟨1, 1⟩, cs⟩

def atEnd (c : Cursor) : Bool := c.rest.isEmpty

def peek? (c : Cursor) : Option Char := c.rest.head?

def placeAfter (p : Place) (c : Char) : Place :=
  if c = '\n' then ⟨p.line + 1, 1⟩ else ⟨p.line, p.column + 1⟩

def next (c : Cursor) : Cursor :=
  match c.rest with
  | [] => c
  | d :: rest => ⟨placeAfter c.place d, rest⟩

/-- No character, at the place of the cursor. -/
def here (c : Cursor) : Span := ⟨c.place, c.place⟩

def one (c : Cursor) : Span := ⟨c.place, c.next.place⟩

def since (c : Cursor) (first : Place) : Span := ⟨first, c.place⟩

/-- The cursor after blanks and comments, `inComment` telling whether it is in one. -/
def skip (inComment : Bool) (p : Place) : List Char → Cursor
  | [] => ⟨p, []⟩
  | c :: cs =>
    if inComment then skip (c ≠ '\n') (placeAfter p c) cs
    else if Text.isBlank c then skip false (placeAfter p c) cs
    else if c = '#' then skip true (placeAfter p c) cs
    else ⟨p, c :: cs⟩

/-- Past blanks and comments where they have no meaning. -/
def settle (spaced : Bool) (c : Cursor) : Cursor := if spaced then skip false c.place c.rest else c

/-- One character further, and past what has no meaning. -/
def step (spaced : Bool) (c : Cursor) : Cursor := if c.next.atEnd then c.next else c.next.settle spaced

def skipText? (text : String) (c : Cursor) : Option Cursor :=
  if text.toList.isPrefixOf c.rest then some (text.toList.foldl (fun c _ => c.next) c) else none

end Cursor

abbrev Read (α : Type) := Except Refusal α

def refuse {α : Type} (f : Fault) (s : Span) : Read α := .error ⟨f, s, none⟩

end RobotConsole.Pattern
