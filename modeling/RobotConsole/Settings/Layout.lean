import RobotConsole.Text.Visible
import RobotConsole.Toml.Printer

/-!
Records in a settings file.  A layout names the fields of a record and says how each takes its
value.  Fields that are not given stay as they are; a field that does not exist is a misfit, and so
is a value of the wrong type.  The first misfit of a file is the one reported.
-/

namespace RobotConsole

inductive Misfit where
  | wrongType (found : Toml) (expected : String)
  | outOfRange (n : Int) (expected : String)
  | unknownField (name : String) (known : List String)
  /-- A text that should be a date or time and is none. -/
  | badTime (text : String)

def Toml.described : Toml → String
  | .text s => s!"string {Text.visible s}"
  | .integer n => s!"integer `{n}`"
  | .float x =>
    let x := NumberStyle.setting.write "NaN" x
    s!"floating point `{x}`"
  | .boolean b => s!"boolean `{b}`"
  | .list _ => "sequence"
  | .time _ => "map"
  | .table _ => "map"

namespace Misfit

def alternatives (names : List String) : String :=
  match names.map fun n => s!"`{n}`" with
  | [] => "nothing"
  | [a] => a
  | [a, b] => s!"{a} or {b}"
  | all => "one of " ++ String.intercalate ", " all

def message : Misfit → String
  | .wrongType found expected => s!"invalid type: {found.described}, expected {expected}"
  | .outOfRange n expected => s!"invalid value: integer `{n}`, expected {expected}"
  | .unknownField name known => s!"unknown field `{name}`, expected {alternatives known}"
  | .badTime _ => "failed to parse datetime"

end Misfit

namespace Toml

def asText : Toml → Except Misfit String
  | .text s => .ok s
  | v => .error (.wrongType v "a string")

def asNat (bound : Nat) (expected : String) : Toml → Except Misfit Nat
  | .integer n =>
    if 0 ≤ n ∧ n < bound then .ok n.toNat else .error (.outOfRange n expected)
  | v => .error (.wrongType v expected)

/-- The date or time that the value under the key of times stands for. -/
def asTime : Toml → Except Misfit Toml
  | .text s =>
    match CalendarTime.ofText? s with
    | some t => .ok (.time t)
    | none => .error (.badTime s)
  | v => .error (.wrongType v "string containing a datetime")

mutual

/-- The value with its dates and times recognised: a table whose first key is that of times is the
one that it names. -/
def withTimes : Toml → Except Misfit Toml
  | .list items => (itemsWithTimes items).map .list
  | .table [] => .ok (.table [])
  | .table ((key, v) :: rest) =>
    if key = timeKey then asTime v
    else (entriesWithTimes ((key, v) :: rest)).map .table
  | v => .ok v

def itemsWithTimes : List Toml → Except Misfit (List Toml)
  | [] => .ok []
  | v :: rest =>
    match v.withTimes with
    | .error m => .error m
    | .ok v => (itemsWithTimes rest).map (v :: ·)

def entriesWithTimes : List (String × Toml) → Except Misfit (List (String × Toml))
  | [] => .ok []
  | (key, v) :: rest =>
    match v.withTimes with
    | .error m => .error m
    | .ok v => (entriesWithTimes rest).map ((key, v) :: ·)

end

def asEntries (v : Toml) : Except Misfit (List (String × Toml)) :=
  match v.entries? with
  | some entries => entriesWithTimes entries
  | none => .error (.wrongType v "a map")

end Toml

/-- A field of a record, and how it takes a value. -/
structure Layout.Field (α : Type) where
  name : String
  put : Toml → α → Except Misfit α

structure Layout (α : Type) where
  /-- What a value has to be to be read as such a record. -/
  expected : String
  fields : List (Layout.Field α)

namespace Layout

variable {α β : Type}

/-- A field whose value is read, given the value it has so far. -/
def field (name : String) (read : α → Toml → Except Misfit β) (set : β → α → α) :
    Layout.Field α :=
  ⟨name, fun v a => (read a v).map fun b => set b a⟩

def readEntries (l : Layout α) : List (String × Toml) → α → Except Misfit α
  | [], a => .ok a
  | (key, v) :: rest, a =>
    match l.fields.find? fun f => f.name = key with
    | none => .error (.unknownField key (l.fields.map Field.name))
    | some f =>
      match f.put v a with
      | .error e => .error e
      | .ok a => readEntries l rest a

/-- Reads values in the order of the fields; what is left over does not matter. -/
def readItems : List (Layout.Field α) → List Toml → α → Except Misfit α
  | f :: fields, v :: items, a =>
    match f.put v a with
    | .error e => .error e
    | .ok a => readItems fields items a
  | _, _, a => .ok a

/-- Reads a record, where `a` holds the values of fields that are not given. -/
def read (l : Layout α) (a : α) (v : Toml) : Except Misfit α :=
  match v with
  | .list items => readItems l.fields items a
  | _ =>
    match v.entries? with
    | some entries => l.readEntries entries a
    | none => .error (.wrongType v l.expected)

end Layout
end RobotConsole
