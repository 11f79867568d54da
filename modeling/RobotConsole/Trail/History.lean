import RobotConsole.Memory

/-!
Bounded histories.  A history keeps the most recent items in the order they came, at most as many
as its capacity.
-/

namespace RobotConsole

/-- The items kept, oldest first. -/
structure History (α : Type) where
  items : List α
  capacity : Nat
  deriving DecidableEq

namespace History

variable {α : Type}

/-- An empty history; it keeps at least the newest item. -/
def new (capacity : Nat) : History α := ⟨[], max capacity 1⟩

/-- Adds an item, in place of the oldest one where the history is full. -/
def push (h : History α) (item : α) : History α :=
  { h with items := (if h.items.length = h.capacity then h.items.tail else h.items) ++ [item] }

def clear (h : History α) : History α := { h with items := [] }

def newest? (h : History α) : Option α := h.items.getLast?

def size (h : History α) : Nat := h.items.length

/-- Whether there is room for a history, whose items of so many octets all get theirs at first. -/
def fits (capacity octets : Nat) : Bool := Memory.fits (max capacity 1) octets

def isEmpty (h : History α) : Bool := h.items.isEmpty

end History
end RobotConsole
