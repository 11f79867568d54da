import RobotConsole.Binary.Arithmetic

/-!
Colours.  The channels of a colour run from zero to one.
-/

namespace RobotConsole

structure Color where
  red : Single
  green : Single
  blue : Single
  alpha : Single
  deriving DecidableEq

namespace Color

def ofBytes (red green blue : UInt8) : Color :=
  ⟨.ofNat red.toNat / 255, .ofNat green.toNat / 255, .ofNat blue.toNat / 255, 1⟩

def black : Color := ⟨0, 0, 0, 1⟩

/-- The colour of graphics that have none of their own. -/
def standard : Color := ⟨0.78, 0.78, 0.78, 0.8⟩

/-- The nearest number from zero to one. -/
def unit (x : Single) : Single := if x < 0 then 0 else if (1 : Single) < x then 1 else x

def lightenChannel (amount channel : Single) : Single := channel + (1 - channel) * amount

/-- The colour moved toward white by a share of its distance. -/
def lighten (c : Color) (amount : Single) : Color :=
  let amount := unit amount
  ⟨lightenChannel amount c.red, lightenChannel amount c.green, lightenChannel amount c.blue,
    c.alpha⟩

def palette : List Color :=
  [ofBytes 66 135 245, ofBytes 245 197 66, ofBytes 96 200 120, ofBytes 220 90 200]

/-- The colour of a robot's marker: the base colours in turn, lighter with each turn. -/
def marker (robot : UInt32) : Color :=
  let base := palette.getD (robot.toNat % palette.length) black
  base.lighten (.ofNat (robot.toNat / palette.length) * 0.25)

end Color
end RobotConsole
