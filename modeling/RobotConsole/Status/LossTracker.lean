import RobotConsole.Binary.Arithmetic

/-!
The share of messages lost on the way, estimated from sequence numbers.  The tracker keeps the
accepted numbers of a window that ends in the newest one; a number far behind the newest means that
the sender has started anew.
-/

namespace RobotConsole

inductive SequenceOutcome where
  /-- The number is newer than all before. -/
  | accepted
  /-- The number is not newer, and is dropped. -/
  | ignored
  /-- The number is far behind, and tracking starts anew with it. -/
  | reset
  deriving DecidableEq, Repr

structure LossTracker where
  /-- The accepted numbers of the window, oldest first. -/
  recent : List UInt64
  lossRate : Single
  /-- Whether the last number was not ignored. -/
  lastValid : Bool

namespace LossTracker

/-- How many of the newest numbers the estimate looks at. -/
def period : Nat := 100

def maxNumber : Nat := 2 ^ 64 - 1

def saturatingAdd (a b : Nat) : Nat := min (a + b) maxNumber

def new : LossTracker := ⟨[], .zero false, false⟩

def classify (newest? : Option UInt64) (n : UInt64) : SequenceOutcome :=
  match newest? with
  | none => .accepted
  | some newest =>
    if saturatingAdd n.toNat period ≤ newest.toNat then .reset
    else if n ≤ newest then .ignored
    else .accepted

/-- The numbers of the window that ends in `n`. -/
def trim (n : UInt64) (numbers : List UInt64) : List UInt64 :=
  numbers.dropWhile fun m => ¬ n.toNat - m.toNat < period

/-- How many numbers the window that ends in `n` can hold. -/
def expected (n : UInt64) : Nat := min (saturatingAdd n.toNat 1) period

/-- The tracker after `n` follows the numbers `before`. -/
def accept (before : List UInt64) (n : UInt64) : LossTracker :=
  let recent := trim n (before ++ [n])
  let lost := expected n - recent.length
  ⟨recent, .ofNat lost / .ofNat (expected n), true⟩

def observe (t : LossTracker) (n : UInt64) : SequenceOutcome × LossTracker :=
  match classify t.recent.getLast? n with
  | .accepted => (.accepted, accept t.recent n)
  | .ignored => (.ignored, { t with lastValid := false })
  | .reset => (.reset, accept [] n)

end LossTracker
end RobotConsole
