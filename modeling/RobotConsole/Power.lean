/-!
Powers of numbers.  They are the ones of the core library in every module, whatever other powers it
knows of, so that a bound such as `2 ^ 64` is the same term wherever it stands.
-/

namespace RobotConsole

instance (priority := 20000) powNat : Pow Nat Nat := instPowNat

instance (priority := 20000) powInt : Pow Int Nat := instPowNat

attribute [default_instance 20000] instPowNat

end RobotConsole
