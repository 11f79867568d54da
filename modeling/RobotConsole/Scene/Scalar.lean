import RobotConsole.Binary.Arithmetic

/-!
Scalars for plane geometry.  The geometry of fields and windows is written over any scalar, so that
it can be read with rounding, over single floats, and without, over the rationals.
-/

namespace RobotConsole

class Scalar (α : Type) extends Add α, Sub α, Mul α, Div α, Neg α where
  ofNat : Nat → α
  half : α
  smaller : α → α → α
  larger : α → α → α

instance : Scalar Single where
  ofNat := Binary.ofNat
  half := 0.5
  smaller := Binary.min
  larger := Binary.max

instance : Scalar Rat where
  ofNat n := n
  half := 1 / 2
  smaller x y := if x ≤ y then x else y
  larger x y := if x ≤ y then y else x

end RobotConsole
