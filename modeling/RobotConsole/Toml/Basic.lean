import RobotConsole.Toml.CalendarTime

/-!
The values of a TOML document.  The entries of a table stand in the order in which the document
brings them; each key occurs once.
-/

namespace RobotConsole

inductive Toml where
  | text (value : String)
  | integer (value : Int)
  | float (value : Double)
  | boolean (value : Bool)
  | time (value : CalendarTime)
  | list (items : List Toml)
  | table (entries : List (String × Toml))

namespace Toml

/-- A character that may stand in a comment or between quotes: no control but the tab. -/
def isVisible (c : Char) : Bool := c = '\t' || (' ' ≤ c && c ≠ '\x7f')

/-- A character of a key without quotes. -/
def isBare (c : Char) : Bool := c.isAlphanum || c = '_' || c = '-'

/-- How deep values lie in one another at most, and how many parts a key has at most. -/
def depthLimit : Nat := 79

end Toml
end RobotConsole
