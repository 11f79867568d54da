import RobotConsole.Memory

/-!
The hand-over of snapshots from publishers to a consumer.  The buffer is a bounded queue with two
atomic steps, `trySend` and `tryReceive`; it is made only where there is room for all its places.
Publishing and reading the latest value are made of such steps, of which those of other threads may
come in between; `publish` and `latest` run them alone.
-/

namespace RobotConsole

/-- A queue of at most `capacity` values, oldest first. -/
structure SnapshotBuffer (α : Type) where
  queue : List α
  capacity : Nat
  capacity_pos : 0 < capacity

namespace SnapshotBuffer

variable {α : Type}

/-- An empty buffer; it holds at least one value. -/
def empty (capacity : Nat) : SnapshotBuffer α := ⟨[], max capacity 1, by omega⟩

def defaultCapacity : Nat := 5

/-- The octets that a place in the queue takes beside its value. -/
def stampOctets : Nat := 8

/-- The octets of a place that holds a team snapshot. -/
def snapshotPlace : Nat := stampOctets + 24

/-- Whether there is room for a queue with places of so many octets. -/
def fits (capacity place : Nat) : Bool := Memory.fits (max capacity 1) place

/-- A new buffer, which gets all its places at first; `none` where there is no room for them. -/
def new? (capacity place : Nat) : Option (SnapshotBuffer α) :=
  if fits capacity place then some (empty capacity) else none

def pending (b : SnapshotBuffer α) : Nat := b.queue.length

/-- Puts a value at the end; `none` where the buffer is full. -/
def trySend (b : SnapshotBuffer α) (value : α) : Option (SnapshotBuffer α) :=
  if b.queue.length < b.capacity then some { b with queue := b.queue ++ [value] } else none

def tryReceive (b : SnapshotBuffer α) : Option α × SnapshotBuffer α :=
  match b.queue with
  | [] => (none, b)
  | value :: rest => (some value, { b with queue := rest })

end SnapshotBuffer

inductive Publisher (α : Type) where
  | idle
  /-- It is about to send a value. -/
  | sending (value : α)
  /-- It found the buffer full and is about to make room for a value. -/
  | evicting (value : α)

namespace Publisher

variable {α : Type}

/-- One atomic step. -/
def step (b : SnapshotBuffer α) : Publisher α → Publisher α × SnapshotBuffer α
  | .idle => (.idle, b)
  | .sending value =>
    match b.trySend value with
    | some b => (.idle, b)
    | none => (.evicting value, b)
  | .evicting value => (.sending value, b.tryReceive.2)

end Publisher

inductive Consumer (α : Type) where
  | idle
  /-- It takes what is there and holds the last value it took. -/
  | draining (held : Option α)

namespace Consumer

variable {α : Type}

/-- One atomic step, and what is handed out where it ends a drain. -/
def step (b : SnapshotBuffer α) : Consumer α → Consumer α × SnapshotBuffer α × Option (Option α)
  | .idle => (.idle, b, none)
  | .draining held =>
    match b.tryReceive with
    | (some value, b) => (.draining (some value), b, none)
    | (none, b) => (.idle, b, some held)

end Consumer

namespace SnapshotBuffer

variable {α : Type}

/-- Sends a value, where at most `evictions` older ones make room for it. -/
def publishWithin (b : SnapshotBuffer α) (value : α) : Nat → SnapshotBuffer α
  | 0 => (b.trySend value).getD b
  | evictions + 1 =>
    match b.trySend value with
    | some b => b
    | none => publishWithin b.tryReceive.2 value evictions

/-- Sends a value, taking the oldest ones out while the buffer is full. -/
def publish (b : SnapshotBuffer α) (value : α) : SnapshotBuffer α :=
  b.publishWithin value b.queue.length

/-- Takes everything from a queue and keeps the last. -/
def drain (held : Option α) : List α → Option α
  | [] => held
  | value :: rest => drain (some value) rest

/-- The newest value since the last call, if any; the buffer is empty afterwards. -/
def latest (b : SnapshotBuffer α) : Option α × SnapshotBuffer α :=
  (drain none b.queue, { b with queue := [] })

end SnapshotBuffer
end RobotConsole
