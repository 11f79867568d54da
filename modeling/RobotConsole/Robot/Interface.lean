import RobotConsole.Text.Blank
import RobotConsole.Text.Integer

/-!
The network interfaces of a machine, from the list that it keeps of their addresses: a line for each
address, whose second word is the number of the interface and whose last word is its name.
-/

namespace RobotConsole

structure Interface where
  name : String
  index : UInt32
  deriving DecidableEq, Repr

namespace Interface

def index? (digits : List Char) : Option UInt32 :=
  (digits.mapM Text.hexDigit?).map fun ds => (ds.foldl (fun n d => 16 * n + d) 0).toUInt32

def ofLine? (line : List Char) : Option Interface :=
  match Text.words line with
  | [_, index, _, _, _, name] => (index? index).map fun i => ⟨String.ofList name, i⟩
  | _ => none

def ofList (text : String) : List Interface := (text.toList.splitOn '\n').filterMap ofLine?

def find? (interfaces : List Interface) (name : String) : Option UInt32 :=
  (interfaces.find? fun i => i.name = name).map Interface.index

end Interface
end RobotConsole
