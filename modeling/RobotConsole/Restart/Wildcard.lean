/-!
Patterns with wildcards.  A quoted character of a pattern only stands for itself.
-/

namespace RobotConsole.Restart

structure Glyph where
  char : Char
  quoted : Bool
  deriving DecidableEq, Repr

namespace Wildcard

def classNamed? (name : String) : Option (Char → Bool) :=
  match name with
  | "alpha" => some Char.isAlpha
  | "digit" => some Char.isDigit
  | "alnum" => some Char.isAlphanum
  | "upper" => some Char.isUpper
  | "lower" => some Char.isLower
  | "space" => some fun c => c = ' ' || ('\t' ≤ c && c ≤ '\r')
  | "blank" => some fun c => c = ' ' || c = '\t'
  | "xdigit" => some fun c => c.isDigit || ('a' ≤ c && c ≤ 'f') || ('A' ≤ c && c ≤ 'F')
  | "punct" => some fun c => '!' ≤ c && c ≤ '~' && !c.isAlphanum
  | "cntrl" => some fun c => c < ' ' || c = '\x7f'
  | "print" => some fun c => ' ' ≤ c && c ≤ '~'
  | "graph" => some fun c => '!' ≤ c && c ≤ '~'
  | _ => none

/-- The class at the start of what follows an opening bracket and colon, and what is after it. -/
def class? (gs : List Glyph) : Option ((Char → Bool) × List Glyph) :=
  let (name, rest) := gs.span fun g => g.char.isAlpha
  match rest with
  | ⟨':', false⟩ :: ⟨']', false⟩ :: rest =>
    (classNamed? (String.ofList (name.map Glyph.char))).map fun p => (p, rest)
  | _ => none

/-- Whether a character is in a set, read after its opening bracket, and what follows the set;
`none` where the set is not closed. -/
def inSet (c : Char) (found first : Bool) : Nat → List Glyph → Option (Bool × List Glyph)
  | 0, _ => none
  | _ + 1, [] => none
  | n + 1, g :: gs =>
    if g = ⟨']', false⟩ && !first then some (found, gs)
    else
      match g, gs with
      | ⟨'[', false⟩, ⟨':', false⟩ :: rest =>
        match class? rest with
        | some (p, after) => inSet c (found || p c) false n after
        | none => inSet c (found || c = '[') false n gs
      | g, ⟨'-', false⟩ :: last :: rest =>
        if last = ⟨']', false⟩ then inSet c (found || c = g.char) false n gs
        else inSet c (found || (g.char ≤ c && c ≤ last.char)) false n rest
      | g, gs => inSet c (found || c = g.char) false n gs

def accepts : Nat → List Glyph → List Char → Bool
  | 0, _, _ => false
  | _ + 1, [], cs => cs.isEmpty
  | n + 1, g :: gs, cs =>
    if g = ⟨'*', false⟩ then
      accepts n gs cs ||
        (match cs with
          | [] => false
          | _ :: rest => accepts n (g :: gs) rest)
    else
      match cs with
      | [] => false
      | c :: rest =>
        if g = ⟨'?', false⟩ then accepts n gs rest
        else if g = ⟨'[', false⟩ then
          let (inverted, set) := (match gs with
            | ⟨'!', false⟩ :: set => (true, set)
            | set => (false, set))
          match inSet c false true (set.length + 1) set with
          | some (found, after) => found != inverted && accepts n after rest
          | none => c = '[' && accepts n gs rest
        else c = g.char && accepts n gs rest

def isMatch (pattern : List Glyph) (cs : List Char) : Bool :=
  accepts (pattern.length + cs.length + 1) pattern cs

/-- The lengths up to `n`, the ones to be tried first coming first. -/
def lengths (longest : Bool) (n : Nat) : List Nat :=
  if longest then (List.range (n + 1)).reverse else List.range (n + 1)

def withoutStart (longest : Bool) (pattern : List Glyph) (cs : List Char) : List Char :=
  match (lengths longest cs.length).find? fun n => isMatch pattern (cs.take n) with
  | some n => cs.drop n
  | none => cs

def withoutEnd (longest : Bool) (pattern : List Glyph) (cs : List Char) : List Char :=
  match (lengths longest cs.length).find? fun n => isMatch pattern (cs.drop (cs.length - n)) with
  | some n => cs.take (cs.length - n)
  | none => cs

end Wildcard

end RobotConsole.Restart
