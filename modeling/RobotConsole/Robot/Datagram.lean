import RobotConsole.Json.Reader
import RobotConsole.Json.Value
import RobotConsole.Robot.Message

/-!
Messages as datagrams.  Each kind of message is a JSON document; `decode?` refuses octets that are
not such a document, and `encode` writes one without blanks.
-/

namespace RobotConsole

namespace Position

def toJson (p : Position) : Json := .record [("x", .ofSingle p.x), ("y", .ofSingle p.y)]

def ofJson? (j : Json) : Option Position :=
  match j.fields? ["x", "y"] with
  | some [x, y] =>
    match x.single?, y.single? with
    | some x, some y => some ⟨x, y⟩
    | _, _ => none
  | _ => none

end Position

namespace RobotState

def toJson (r : RobotState) : Json :=
  .record [("id", .ofNat r.id.toNat), ("position", Position.toJson r.position)]

def ofJson? (j : Json) : Option RobotState :=
  match j.fields? ["id", "position"] with
  | some [id, position] =>
    match id.nat? (2 ^ 32), Position.ofJson? position with
    | some id, some p => some ⟨id.toUInt32, p⟩
    | _, _ => none
  | _ => none

end RobotState

namespace TeamSnapshot

def toJson (s : TeamSnapshot) : Json := .record [("robots", .list (s.robots.map RobotState.toJson))]

def ofJson? (j : Json) : Option TeamSnapshot :=
  match j.fields? ["robots"] with
  | some [.list robots] => (robots.mapM RobotState.ofJson?).map TeamSnapshot.mk
  | _ => none

def encode (s : TeamSnapshot) : List UInt8 := s.toJson.octets

def decode? (bytes : List UInt8) : Option TeamSnapshot := (Json.ofOctets? bytes).bind ofJson?

end TeamSnapshot

namespace RobotStatus

def fieldNames : List String :=
  ["robot_id", "sequence_number", "epoch_timestamp_seconds", "battery_voltage",
    "capacitor_voltage", "primitive_packet_loss_percentage", "running_primitive"]

def toJson (s : RobotStatus) : Json :=
  .record <| fieldNames.zip
    [.ofNat s.robotId.toNat, .ofNat s.sequenceNumber.toNat, .ofNat s.timestamp.toNat,
      .ofSingle s.batteryVoltage, .ofSingle s.capacitorVoltage, .ofNat s.primitiveLoss.toNat,
      .bool s.runningPrimitive]

def ofJson? (j : Json) : Option RobotStatus := do
  match ← j.fields? fieldNames with
  | [id, sequence, timestamp, battery, capacitor, loss, running] =>
    let id ← id.nat? (2 ^ 32)
    let sequence ← sequence.nat? (2 ^ 64)
    let timestamp ← timestamp.nat? (2 ^ 64)
    let battery ← battery.single?
    let capacitor ← capacitor.single?
    let loss ← loss.nat? (2 ^ 32)
    let running ← running.bool?
    return ⟨id.toUInt32, sequence.toUInt64, timestamp.toUInt64, battery, capacitor,
      loss.toUInt32, running⟩
  | _ => none

def encode (s : RobotStatus) : List UInt8 := s.toJson.octets

def decode? (bytes : List UInt8) : Option RobotStatus := (Json.ofOctets? bytes).bind ofJson?

end RobotStatus

namespace Primitive

/-- The member that says which primitive an object is. -/
def tagName : String := "primitive"

def tagged (tag : String) (fields : List (String × Json)) : Json :=
  .record ((tagName, .ofString tag) :: fields)

def toJson : Primitive → Json
  | .rotate v => tagged "rotate" [("velocity_rad_per_s", .ofSingle v)]
  | .move d h s =>
    tagged "move"
      [("direction", .ofString d.tag), ("heading_degrees", .ofNat h.toNat), ("speed", .ofSingle s)]
  | .chip d => tagged "chip" [("distance_m", .ofSingle d)]
  | .kick s => tagged "kick" [("speed_m_per_s", .ofSingle s)]
  | .dribble v => tagged "dribble" [("velocity_rad_per_s", .ofSingle v)]
  | .stop => tagged "stop" []

/-- A direction is its name, or an object with its name and nothing in it. -/
def direction? : Json → Option Direction
  | .string raw => (Json.text? raw).bind Direction.ofTag?
  | .object [(raw, .null)] => (Json.text? raw).bind Direction.ofTag?
  | .object [(raw, .object [])] => (Json.text? raw).bind Direction.ofTag?
  | _ => none

def single? (name : String) (body : Json) : Option Single :=
  match body.fields? [name] with
  | some [x] => x.single?
  | _ => none

/-- The primitive of a tag, read from what is left without the tag.  Stopping ignores all members
of an object, but takes no items of a list. -/
def ofBody? (tag : String) (body : Json) : Option Primitive :=
  match tag with
  | "rotate" => (single? "velocity_rad_per_s" body).map .rotate
  | "move" =>
    match body.fields? ["direction", "heading_degrees", "speed"] with
    | some [d, h, s] =>
      match direction? d, h.nat? (2 ^ 16), s.single? with
      | some d, some h, some s => some (.move d h.toUInt16 s)
      | _, _, _ => none
    | _ => none
  | "chip" => (single? "distance_m" body).map .chip
  | "kick" => (single? "speed_m_per_s" body).map .kick
  | "dribble" => (single? "velocity_rad_per_s" body).map .dribble
  | "stop" =>
    match body with
    | .object _ => some .stop
    | .list [] => some .stop
    | _ => none
  | _ => none

/-- Every part of a primitive's document has to be sound, since it is read before its tag is
known; a list gives the tag first. -/
def ofJson? (j : Json) : Option Primitive :=
  if j.sound ∧ j.depth ≤ 127 then
    match j with
    | .object members =>
      match Json.texts? members with
      | none => none
      | some ms =>
        match Json.named tagName ms with
        | [.string raw] =>
          (Json.text? raw).bind fun tag =>
            ofBody? tag (.object (members.filter fun (raw, _) => Json.text? raw ≠ some tagName))
        | _ => none
    | .list (.string raw :: rest) => (Json.text? raw).bind fun tag => ofBody? tag (.list rest)
    | _ => none
  else none

def encode (p : Primitive) : List UInt8 := p.toJson.octets

def decode? (bytes : List UInt8) : Option Primitive := (Json.ofOctets? bytes).bind ofJson?

end Primitive
end RobotConsole
