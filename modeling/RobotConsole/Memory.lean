import RobotConsole.Power

/-!
Room for values.  A row of values takes one piece of memory, whose octets a signed word counts.
-/

namespace RobotConsole.Memory

/-- The most octets in one piece. -/
def limit : Nat := 2 ^ 63 - 1

/-- Whether there may be room for so many values of so many octets each. -/
def fits (values octets : Nat) : Bool := values * octets ≤ limit

end RobotConsole.Memory
