import RobotConsole.Store.Basic
import RobotConsole.Toml.Printer

/-!
The store of a settings file.  Keys are looked up without the slashes before them; a text stands for
itself and another single value for its text.
-/

namespace RobotConsole.Store

/-- A key without the slashes before it. -/
def plainKey (key : String) : String := String.ofList (key.toList.dropWhile (· = '/'))

/-- Reads from a table.  A list or a table is no value of a store. -/
def ofEntries (entries : List (String × Toml)) : Store := fun key =>
  match entries.lookup (plainKey key) with
  | none => .ok none
  | some (.text s) => .ok (some s)
  | some (.list items) => .error ⟨key, (Toml.list items).display⟩
  | some (.table entries) => .error ⟨key, (Toml.table entries).display⟩
  | some v => .ok (some v.display)

end RobotConsole.Store
