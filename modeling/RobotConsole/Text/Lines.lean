import RobotConsole.Text.Utf8

/-!
Lines of an octet stream.  A reader hands on one line after the other, without its end, until a
line is no text or nobody takes the lines any more.
-/

namespace RobotConsole.Text

/-- The lines of a stream, each with its line feed. -/
def splitLines : List UInt8 → List (List UInt8)
  | [] => []
  | b :: bs =>
    if b = 10 then [b] :: splitLines bs
    else
      match splitLines bs with
      | [] => [[b]]
      | line :: rest => (b :: line) :: rest

/-- A line without its line feed and without one carriage return before that. -/
def withoutEnd (line : List UInt8) : List UInt8 :=
  match line.reverse with
  | 10 :: 13 :: rest => rest.reverse
  | 10 :: rest => rest.reverse
  | _ => line

/-- The lines handed on, and how many octets were read for that. -/
structure HandedOn where
  lines : List String
  consumed : Nat
  deriving DecidableEq, Repr

/-- Hands on lines, as many as are taken.  The line that is not taken any more has been read. -/
def handOn (taken : Option Nat) : List (List UInt8) → HandedOn
  | [] => ⟨[], 0⟩
  | line :: rest =>
    match Utf8.decode? (withoutEnd line) with
    | none => ⟨[], line.length⟩
    | some cs =>
      if taken = some 0 then ⟨[], line.length⟩
      else
        let r := handOn (taken.map (· - 1)) rest
        ⟨String.ofList cs :: r.lines, line.length + r.consumed⟩

/-- Reads a stream whose first `taken` lines are taken, or all of them. -/
def readLines (taken : Option Nat) (stream : List UInt8) : HandedOn :=
  handOn taken (splitLines stream)

end RobotConsole.Text
