import RobotConsole.Toml.Quoted

/-!
Values as text on one line.  The entries of a table are in the order of their keys.
-/

namespace RobotConsole.Toml

/-- The key under which a date or time stands alone in a table. -/
def timeKey : String := "$__toml_private_datetime"

/-- The entries that a value consists of; a date or time is a table of its text alone. -/
def entries? : Toml → Option (List (String × Toml))
  | .table entries => some entries
  | .time t => some [(timeKey, .text t.text)]
  | _ => none

def floatText (x : Double) : String := NumberStyle.setting.write "nan" x

def commaSeparated (items : List (List Char)) : List Char := List.intercalate [',', ' '] items

mutual

def chars : Toml → List Char
  | .text s => quoted s.toList
  | .integer n => (toString n).toList
  | .float x => (floatText x).toList
  | .boolean b => (toString b).toList
  | .time t => t.text.toList
  | .list items => '[' :: commaSeparated (itemChars items) ++ [']']
  | .table [] => ['\x7b', '\x7d']
  | .table entries =>
    let sorted := (entryChars entries).mergeSort fun a b => !decide (b.1 < a.1)
    '\x7b' :: ' ' :: commaSeparated (sorted.map fun (key, cs) => keyChars key.toList ++ cs) ++
      [' ', '\x7d']

def itemChars : List Toml → List (List Char)
  | [] => []
  | v :: rest => v.chars :: itemChars rest

def entryChars : List (String × Toml) → List (String × List Char)
  | [] => []
  | (key, v) :: rest => (key, ' ' :: '=' :: ' ' :: v.chars) :: entryChars rest

end

def display : Toml → String
  | .time t => String.ofList (Toml.table [(timeKey, .text t.text)]).chars
  | v => String.ofList v.chars

end RobotConsole.Toml
