import RobotConsole.Power

/-!
Durations and instants.  Both count nanoseconds, an instant from the start of its clock.  The machine
keeps the whole seconds of a duration in a word, and those of an instant in a signed word; a sum beyond
that ends the program.  Two kinds of sums are made.  A display adds its interval, which may be any
duration, to the instant of its last frame, and the model checks that sum.  A rate counter adds up the
times of frames until they take a second; the model does not check these sums, and what is said of
their reports supposes that they stay below `Duration.limit`.
-/

namespace RobotConsole

abbrev Duration := Nat

abbrev Instant := Nat

namespace Duration

def ofMicros (n : Nat) : Duration := n * 10 ^ 3

def ofMillis (n : Nat) : Duration := n * 10 ^ 6

def ofSeconds (n : Nat) : Duration := n * 10 ^ 9

/-- The first duration that a machine cannot keep. -/
def limit : Duration := ofSeconds (2 ^ 64)

end Duration

/-- The first instant that a machine cannot keep. -/
def Instant.limit : Instant := Duration.ofSeconds (2 ^ 63)

end RobotConsole
