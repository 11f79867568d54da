/-!
How robots are reached: ports, multicast groups and the key-value store on the robot.  A channel is
an index into the table of groups.
-/

namespace RobotConsole

/-- An IPv6 address as eight groups of sixteen bits. -/
structure Address where
  groups : List UInt16
  deriving DecidableEq, Repr

namespace Address

def hex (n : UInt16) : String := String.ofList (Nat.toDigits 16 n.toNat)

def zeroRun (gs : List UInt16) : Nat := (gs.takeWhile (· = 0)).length

/-- Where the first of the longest runs of zero groups starts, and its length. -/
def longestZeroRun (gs : List UInt16) : Nat × Nat :=
  (List.range gs.length).foldl
    (fun best i => if best.2 < zeroRun (gs.drop i) then (i, zeroRun (gs.drop i)) else best) (0, 0)

def joined (gs : List UInt16) : String := String.intercalate ":" (gs.map hex)

/-- The address as text, with the first longest run of several zero groups left out. -/
def text (a : Address) : String :=
  let (start, length) := longestZeroRun a.groups
  if length < 2 then joined a.groups
  else joined (a.groups.take start) ++ "::" ++ joined (a.groups.drop (start + length))

end Address

/-- An address with a port, within the scope of one network interface unless that is zero. -/
structure Endpoint where
  address : Address
  port : UInt16
  scope : UInt32
  deriving DecidableEq, Repr

namespace Endpoint

def text (e : Endpoint) : String :=
  let scope := if e.scope = 0 then "" else s!"%{e.scope}"
  s!"[{e.address.text}{scope}]:{e.port}"

end Endpoint

namespace Radio

def primitivePort : UInt16 := 42070

def statusPort : UInt16 := 42071

def snapshotPort : UInt16 := 42077

def storeHost : String := "127.0.0.1"

def storePort : UInt16 := 6379

def robotsPerSide : Nat := 8

def robots : Nat := 2 * robotsPerSide

/-- The last octet of each channel's group: the channel number read in base ten, as base sixteen. -/
def groupOctets : List UInt16 :=
  [0x00, 0x01, 0x02, 0x03, 0x04, 0x05, 0x06, 0x07, 0x08, 0x09, 0x10, 0x11, 0x12, 0x13, 0x14, 0x15]

def groupOf (octet : UInt16) : Address := ⟨[0xff02, 0, 0, 0, 0, 0xc3d0, 0x42d2, 0xbb00 + octet]⟩

/-- The multicast group of a channel; `none` outside the table. -/
def group? (channel : UInt32) : Option Address := (groupOctets[channel.toNat]?).map groupOf

inductive Unreachable where
  | noGroup (channel : UInt32)
  | unknownInterface (name : String)
  deriving DecidableEq, Repr

namespace Unreachable

def message : Unreachable → String
  | .noGroup channel => s!"channel {channel} has no multicast address"
  | .unknownInterface name => s!"unknown network interface '{name}'"

end Unreachable

/-- The group of a channel in the scope of an interface, where `index?` finds the interfaces of the
machine. -/
def resolve (index? : String → Option UInt32) (channel : UInt32) (interface : String) :
    Except Unreachable (Address × UInt32) :=
  match group? channel with
  | none => .error (.noGroup channel)
  | some group =>
    match index? interface with
    | none => .error (.unknownInterface interface)
    | some scope => .ok (group, scope)

end Radio
end RobotConsole
