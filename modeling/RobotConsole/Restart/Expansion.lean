import RobotConsole.Restart.State
import RobotConsole.Restart.Sum
import RobotConsole.Restart.Wildcard

/-!
What words stand for.  Parts are replaced first; what came from an unquoted one is then cut into
fields at the separators of the script.
-/

namespace RobotConsole.Restart

inductive Atom where
  | char (c : Char) (quoted splits : Bool)
  /-- There is a field here, be it empty. -/
  | keep
  /-- One field ends here and the next one starts. -/
  | cut
  deriving DecidableEq, Repr

/-- How the commands, words and texts within a command are dealt with. -/
structure Runner where
  run : (tested : Bool) → Command → Act Unit
  atoms : Word → Act (List Atom)
  /-- Runs a text as a script within this one. -/
  script : (tested : Bool) → String → Act Unit

namespace Expansion

def replaced (text : String) (quoted : Bool) : List Atom :=
  if text.isEmpty && quoted then [.keep] else text.toList.map fun c => .char c quoted (!quoted)

def separators (s : State) : List Char := ((s.value? "IFS").getD " \t\n").toList

/-- The arguments of a script, as one text or as fields of their own. -/
def arguments (s : State) (name : String) (quoted : Bool) : List Atom :=
  if name = "*" && quoted then
    let between := ((separators s).head?.map String.singleton).getD ""
    replaced (if (s.value? "IFS").isNone then " ".intercalate s.arguments
      else between.intercalate s.arguments) true
  else (s.arguments.map fun a => replaced a quoted).intersperse [Atom.cut] |>.flatten

def value? (s : State) (name : String) : Option String :=
  match name with
  | "?" => some (toString s.status)
  | "$" => some (toString s.known)
  | "#" => some (toString s.arguments.length)
  | "!" => s.lastJob.map toString
  | "-" => some (String.ofList s.options)
  | "0" => some s.name
  | "@" | "*" => if s.arguments.isEmpty then none else some (" ".intercalate s.arguments)
  | "PPID" => some (toString s.parent)
  | name =>
    match name.toNat? with
    | some n => if n = 0 then some s.name else s.arguments[n - 1]?
    | none => s.value? name

/-- The glyphs of atoms that are not cut into fields. -/
def glyphs (atoms : List Atom) : List Glyph :=
  atoms.filterMap fun a =>
    match a with
    | .char c quoted _ => some ⟨c, quoted⟩
    | .keep => none
    | .cut => some ⟨' ', true⟩

def text (atoms : List Atom) : String := String.ofList ((glyphs atoms).map Glyph.char)

/-- The text of a parameter that has to be set if the script asks for that. -/
def demanded (name : String) : Act String := do
  let s ← get
  match value? s name with
  | some v => return v
  | none =>
    if 'u' ∈ s.options && name ≠ "@" && name ≠ "*" then Act.fault
    else return ""

/-- Another word in the place of a parameter, in which unquoted text separates fields too. -/
def instead (r : Runner) (w : Word) (quoted : Bool) : Act (List Atom) := do
  let atoms ← r.atoms w
  if quoted then return (if atoms.isEmpty then [.keep] else atoms)
  else
    return atoms.map fun a =>
      match a with
      | .char c false _ => .char c false true
      | a => a

/-- A text without the ends of lines after it. -/
def trimmed (text : String) : String :=
  String.ofList (text.toList.reverse.dropWhile (· = '\n')).reverse

def parameter (r : Runner) (name : String) (use : Use) (quoted : Bool) : Act (List Atom) := do
  let s ← get
  let all := name = "@" || name = "*"
  let missing (coversEmpty : Bool) : Bool :=
    match value? s name with
    | none => true
    | some v => coversEmpty && v.isEmpty
  let plain : Act (List Atom) := do
    if all then return arguments s name quoted else return replaced (← demanded name) quoted
  let cutDown (how : List Glyph → List Char → List Char) (w : Word) : Act (List Atom) := do
    let v ← demanded name
    return replaced (String.ofList (how (glyphs (← r.atoms w)) v.toList)) quoted
  match use with
  | .value => plain
  | .length => do return replaced (toString (← demanded name).utf8ByteSize) quoted
  | .orElse coversEmpty w => if missing coversEmpty then instead r w quoted else plain
  | .orAssign coversEmpty w =>
    if missing coversEmpty then
      if !isName name.toList then Act.fault
      let v := text (← r.atoms w)
      Act.assign name v
      return replaced v quoted
    else plain
  | .orFail coversEmpty => if missing coversEmpty then Act.fault else plain
  | .ifSet coversEmpty w =>
    if missing coversEmpty then return (if quoted then [.keep] else []) else instead r w quoted
  | .withoutStart longest w => cutDown (Wildcard.withoutStart longest) w
  | .withoutEnd longest w => cutDown (Wildcard.withoutEnd longest) w
  | .unknown => Act.fault

/-- The number of a sum, whose assignments are made. -/
def sum (text : String) : Act Int := do
  let a ← Act.orFault (Sum.read? text.toList)
  let s ← get
  let (n, given) ← Act.orFault ((Sum.evaluate (value? s) a).run [])
  for (name, m) in given.reverse do Act.assign name (toString m)
  return n

def part (r : Runner) : Part → Act (List Atom)
  | .text cs quoted =>
    return if cs.isEmpty && quoted then [.keep] else cs.map fun c => .char c quoted false
  | .parameter name use quoted => parameter r name use quoted
  | .output command quoted => do
    let (status, written) ← captured (inChild (r.script false) (r.run false command))
    modify fun s => { s with innerStatus := status }
    return replaced (trimmed written) quoted
  | .sum expression quoted => do
    return replaced (toString (← sum (text (← r.atoms expression)))) quoted

/-- A word whose first part stands for the home directory, if it starts so. -/
def home (s : State) (w : Word) : Word :=
  match w with
  | .text ('~' :: cs) false :: rest =>
    if (cs.isEmpty && rest.isEmpty) || cs.head? = some '/' then
      match s.value? "HOME" with
      | some h => .text h.toList true :: .text cs false :: rest
      | none => w
    else w
  | w => w

/-- The fields that atoms make, read after the characters of one that has started.  `afterBlank`
tells that blanks have ended a field and nothing else has come since. -/
def cutAtoms (seps : List Char) (field : Option (List Char)) (afterBlank : Bool) :
    List Atom → List String
  | [] => (field.map fun cs => String.ofList cs.reverse).toList
  | .keep :: rest => cutAtoms seps (some (field.getD [])) false rest
  | .cut :: rest =>
    (field.map fun cs => String.ofList cs.reverse).toList ++ cutAtoms seps none false rest
  | .char c _ splits :: rest =>
    if splits && seps.contains c then
      if c = ' ' || c = '\t' || c = '\n' then
        match field with
        | some cs => String.ofList cs.reverse :: cutAtoms seps none true rest
        | none => cutAtoms seps none afterBlank rest
      else
        match field with
        | some cs => String.ofList cs.reverse :: cutAtoms seps none false rest
        | none =>
          if afterBlank then cutAtoms seps none false rest
          else "" :: cutAtoms seps none false rest
    else cutAtoms seps (some (c :: field.getD [])) false rest

def word (r : Runner) (w : Word) : Act (List Atom) := do
  return (← (home (← get) w).mapM (part r)).flatten

def fields (r : Runner) : List Word → Act (List String)
  | [] => return []
  | w :: ws => do
    let atoms ← r.atoms w
    let first := cutAtoms (separators (← get)) none false atoms
    return first ++ (← fields r ws)

def single (r : Runner) (w : Word) : Act String := do return text (← r.atoms w)

end Expansion

end RobotConsole.Restart
