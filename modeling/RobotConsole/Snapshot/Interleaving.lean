import RobotConsole.Snapshot.Buffer

/-!
Several publishers and one consumer on one buffer.  The threads take turns in any order, one atomic
step at a time; a run is the list of the turns taken.
-/

namespace RobotConsole

/-- The buffer, what each thread is about to do, and the values sent and handed out so far. -/
structure Exchange (α : Type) where
  buffer : SnapshotBuffer α
  publishers : List (Publisher α)
  consumer : Consumer α
  /-- The values sent, in the order of their sending. -/
  sent : List α
  /-- The values handed out, oldest first. -/
  handedOut : List α

namespace Exchange

variable {α : Type}

inductive Turn (α : Type) where
  /-- A publisher that is idle takes up a value. -/
  | publish (publisher : Nat) (value : α)
  /-- A publisher takes its next atomic step. -/
  | advance (publisher : Nat)
  /-- The consumer, if it is idle, begins to read. -/
  | poll
  /-- The consumer takes its next atomic step. -/
  | receive

/-- Idle threads on a buffer. -/
def idleOn (buffer : SnapshotBuffer α) (publishers : Nat) : Exchange α :=
  ⟨buffer, List.replicate publishers .idle, .idle, [], []⟩

/-- Idle threads on an empty queue. -/
def new (capacity publishers : Nat) : Exchange α := idleOn (.empty capacity) publishers

/-- Idle threads on a new buffer with places of so many octets, if there is room for it. -/
def new? (capacity place publishers : Nat) : Option (Exchange α) :=
  (SnapshotBuffer.new? capacity place).map fun buffer => idleOn buffer publishers

/-- The value that an atomic step of a publisher sends. -/
def sends (b : SnapshotBuffer α) : Publisher α → List α
  | .sending value => if (b.trySend value).isSome then [value] else []
  | _ => []

def turn (e : Exchange α) : Turn α → Exchange α
  | .publish i value =>
    match e.publishers[i]? with
    | some .idle => { e with publishers := e.publishers.set i (.sending value) }
    | _ => e
  | .advance i =>
    match e.publishers[i]? with
    | some p =>
      let (p', b) := p.step e.buffer
      { e with
        buffer := b
        publishers := e.publishers.set i p'
        sent := e.sent ++ sends e.buffer p }
    | none => e
  | .poll =>
    match e.consumer with
    | .idle => { e with consumer := .draining none }
    | .draining _ => e
  | .receive =>
    let (c, b, result) := e.consumer.step e.buffer
    { e with
      buffer := b
      consumer := c
      handedOut := e.handedOut ++ result.join.toList }

def run (e : Exchange α) (turns : List (Turn α)) : Exchange α := turns.foldl turn e

end Exchange
end RobotConsole
