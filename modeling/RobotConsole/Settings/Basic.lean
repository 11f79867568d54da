import RobotConsole.Live.Frames
import RobotConsole.Robot.Radio
import RobotConsole.Settings.Layout
import RobotConsole.Snapshot.Buffer
import RobotConsole.Text.Utf8
import RobotConsole.Toml.Document
import RobotConsole.Trail.Cycle

/-!
The settings of the console.  A settings file gives some of them, and the others have their standard
values; the words of the command line go before the file.
-/

namespace RobotConsole

structure NetworkSettings where
  interface : String
  channel : UInt32
  primitivePort : UInt16
  statusPort : UInt16
  snapshotPort : UInt16
  snapshotBufferSize : Nat
  deriving DecidableEq, Repr

structure DisplaySettings where
  refreshMillis : Nat
  trailLength : Nat
  deriving DecidableEq, Repr

structure RobotSettings where
  restartCommand : Option String
  deriving DecidableEq, Repr

structure Settings where
  network : NetworkSettings
  display : DisplaySettings
  robot : RobotSettings
  /-- What the store holds, without the slash before each key. -/
  store : List (String × Toml)

/-- Live displays wait for at least a millisecond. -/
def DisplaySettings.refreshInterval (d : DisplaySettings) : Duration :=
  .ofMillis (max d.refreshMillis 1)

inductive FileFault where
  | notText
  | directory
  | refused
  deriving DecidableEq, Repr

def FileFault.message : FileFault → String
  | .notText => "stream did not contain valid UTF-8"
  | .directory => "Is a directory (os error 21)"
  | .refused => "Permission denied (os error 13)"

/-- Why a settings file cannot be used.  A text that should be a date is a fault of syntax. -/
inductive SettingsFault where
  | unreadable (e : FileFault)
  | badSyntax
  | misfit (m : Misfit)

def SettingsFault.ofMisfit : Misfit → SettingsFault
  | .badTime _ => .badSyntax
  | m => .misfit m

namespace Settings

def standardNetwork : NetworkSettings :=
  ⟨"eth0", 0, Radio.primitivePort, Radio.statusPort, Radio.snapshotPort,
    SnapshotBuffer.defaultCapacity⟩

def standardDisplay : DisplaySettings :=
  ⟨LiveFrames.defaultInterval / Duration.ofMillis 1, TrailCycle.defaultLength⟩

def standardRobot : RobotSettings := ⟨none⟩

def standard : Settings := ⟨standardNetwork, standardDisplay, standardRobot, []⟩

def isStandard (s : Settings) : Bool :=
  s.network = standardNetwork && s.display = standardDisplay && s.robot = standardRobot &&
    s.store.isEmpty

/-! Layouts -/

def port {α : Type} (name : String) (set : UInt16 → α → α) : Layout.Field α :=
  Layout.field name (fun _ => Toml.asNat (2 ^ 16) "u16") fun n => set n.toUInt16

def networkLayout : Layout NetworkSettings where
  expected := "struct NetworkConfig"
  fields :=
    [Layout.field "interface" (fun _ => Toml.asText) fun s n => { n with interface := s },
     Layout.field "channel" (fun _ => Toml.asNat (2 ^ 32) "u32") fun c n =>
       { n with channel := c.toUInt32 },
     port "primitive_port" fun p n => { n with primitivePort := p },
     port "status_port" fun p n => { n with statusPort := p },
     port "snapshot_port" fun p n => { n with snapshotPort := p },
     Layout.field "snapshot_buffer_size" (fun _ => Toml.asNat (2 ^ 64) "usize") fun k n =>
       { n with snapshotBufferSize := k }]

def displayLayout : Layout DisplaySettings where
  expected := "struct DisplayConfig"
  fields :=
    [Layout.field "refresh_interval_ms" (fun _ => Toml.asNat (2 ^ 64) "u64") fun k d =>
       { d with refreshMillis := k },
     Layout.field "trail_length" (fun _ => Toml.asNat (2 ^ 64) "usize") fun k d =>
       { d with trailLength := k }]

def robotLayout : Layout RobotSettings where
  expected := "struct RobotConfig"
  fields :=
    [Layout.field "restart_command" (fun _ => Toml.asText) fun s _ => ⟨some s⟩]

def layout : Layout Settings where
  expected := "struct BotscopeConfig"
  fields :=
    [Layout.field "network" (fun s => networkLayout.read s.network) fun n s =>
       { s with network := n },
     Layout.field "display" (fun s => displayLayout.read s.display) fun d s =>
       { s with display := d },
     Layout.field "robot" (fun s => robotLayout.read s.robot) fun r s => { s with robot := r },
     Layout.field "store" (fun _ => Toml.asEntries) fun es s => { s with store := es }]

def ofEntries (entries : List (String × Toml)) : Except Misfit Settings :=
  layout.readEntries entries standard

def ofText (cs : List Char) : Except SettingsFault Settings :=
  match Toml.ofText? cs with
  | none => .error .badSyntax
  | some entries => (ofEntries entries).mapError .ofMisfit

def ofOctets (bytes : List UInt8) : Except SettingsFault Settings :=
  match Text.Utf8.decode? bytes with
  | none => .error (.unreadable .notText)
  | some cs => ofText cs

/-- Puts an interface and a channel before those of a file. -/
def override (s : Settings) (interface : Option String) (channel : Option UInt32) : Settings :=
  let network := s.network
  { s with
    network :=
      { network with
        interface := interface.getD network.interface
        channel := channel.getD network.channel } }

end Settings
end RobotConsole
