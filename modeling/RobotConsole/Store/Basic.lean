import RobotConsole.Binary.Numeral
import RobotConsole.Robot.Direction
import RobotConsole.Table.Box
import RobotConsole.Text.Blank
import RobotConsole.Text.Integer

/-!
The key-value store of a robot.  A store is read one key at a time; values are texts, and are read
as what they should be without the blanks around them.
-/

namespace RobotConsole

/-- The keys that robots publish. -/
inductive StoreKey where
  | robotId
  | channelId
  | networkInterface
  | kickConstant
  | kickCoefficient
  | chipPulseWidth
  | currentDraw
  | batteryVoltage
  | capacitorVoltage
  deriving DecidableEq, Repr

namespace StoreKey

/-- Every key in the order of display. -/
def all : List StoreKey :=
  [.robotId, .channelId, .networkInterface, .kickConstant, .kickCoefficient, .chipPulseWidth,
    .currentDraw, .batteryVoltage, .capacitorVoltage]

def key : StoreKey → String
  | .robotId => "/robot_id"
  | .channelId => "/channel_id"
  | .networkInterface => "/network_interface"
  | .kickConstant => "/kick_constant"
  | .kickCoefficient => "/kick_exp_coeff"
  | .chipPulseWidth => "/chip_pulse_width"
  | .currentDraw => "/current_draw"
  | .batteryVoltage => "/battery_voltage"
  | .capacitorVoltage => "/cap_voltage"

def label : StoreKey → String
  | .robotId => "Robot ID"
  | .channelId => "Channel ID"
  | .networkInterface => "Network Interface"
  | .kickConstant => "Kick Constant"
  | .kickCoefficient => "Kick Coefficient"
  | .chipPulseWidth => "Chip Pulse Width"
  | .currentDraw => "Current Draw"
  | .batteryVoltage => "Battery Voltage"
  | .capacitorVoltage => "Capacitor Voltage"

end StoreKey

structure InvalidValue where
  key : String
  value : String
  deriving DecidableEq, Repr

def InvalidValue.message (e : InvalidValue) : String :=
  s!"value '{e.value}' stored under '{e.key}' is invalid"

/-- A store, as the function that reads a key. -/
abbrev Store := String → Except InvalidValue (Option String)

class OfText (α : Type) where
  ofText? : List Char → Option α

instance : OfText String := ⟨fun cs => some (String.ofList cs)⟩

instance : OfText UInt8 := ⟨fun cs => (Text.readNatural (2 ^ 8 - 1) cs).toOption.map Nat.toUInt8⟩

instance : OfText UInt32 := ⟨fun cs => (Text.readNatural (2 ^ 32 - 1) cs).toOption.map Nat.toUInt32⟩

instance : OfText UInt64 := ⟨fun cs => (Text.readNatural (2 ^ 64 - 1) cs).toOption.map Nat.toUInt64⟩

instance : OfText Int32 := ⟨fun cs => (Text.readInteger (2 ^ 31) cs).toOption.map Int.toInt32⟩

instance : OfText Bool where
  ofText? cs :=
    if cs = "true".toList then some true else if cs = "false".toList then some false else none

instance : OfText Direction := ⟨fun cs => (Direction.ofText (String.ofList cs)).toOption⟩

instance : OfText Single := ⟨Binary.ofChars?⟩

namespace Store

def getAs (α : Type) [OfText α] (s : Store) (key : StoreKey) : Except InvalidValue (Option α) :=
  match s key.key with
  | .error e => .error e
  | .ok none => .ok none
  | .ok (some raw) =>
    match OfText.ofText? (Text.trim raw.toList) with
    | some a => .ok (some a)
    | none => .error ⟨key.key, raw⟩

/-- What the table shows for a key: its value, or a dash where there is none that can be read. -/
def shown (s : Store) (key : StoreKey) : String :=
  match s key.key with
  | .ok (some value) => value
  | _ => BoxTable.blank

def table (s : Store) : BoxTable :=
  StoreKey.all.foldl (fun t key => t.addRow [key.label, key.key, s.shown key])
    (.new ["Name", "Key", "Value"])

end Store

/-- A store in memory: its keys with their values, each key once. -/
structure MemoryStore where
  entries : List (String × String)

namespace MemoryStore

def empty : MemoryStore := ⟨[]⟩

def get? (m : MemoryStore) (key : String) : Option String := m.entries.lookup key

def insert (m : MemoryStore) (key value : String) : MemoryStore :=
  ⟨(key, value) :: m.entries.filter fun (k, _) => k ≠ key⟩

def store (m : MemoryStore) : Store := fun key => .ok (m.get? key)

end MemoryStore
end RobotConsole
