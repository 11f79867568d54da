import RobotConsole.Robot.Datagram
import RobotConsole.Robot.Socket

/-!
Listening for datagrams.  Every datagram is received into the same buffer, at its start, and what
was received is decoded; datagrams that do not decode are dropped.
-/

namespace RobotConsole.Listener

/-- The size of the largest datagram. -/
def bufferSize : Nat := 65507

/-- A buffer after a datagram was received into it, and how many octets it took. -/
def receive (buffer datagram : List UInt8) : List UInt8 × Nat :=
  (datagram.take buffer.length ++ buffer.drop datagram.length,
    min datagram.length buffer.length)

variable {α : Type}

/-- The messages that are delivered from datagrams received one after the other. -/
def listen (decode : List UInt8 → Option α) (buffer : List UInt8) : List (List UInt8) → List α
  | [] => []
  | d :: ds =>
    let (buffer, size) := receive buffer d
    match decode (buffer.take size) with
    | some message => message :: listen decode buffer ds
    | none => listen decode buffer ds

/-- The messages of datagrams that come over a network, unless that has a fault. -/
def deliver (fault : Option SocketFault) (decode : List UInt8 → Option α)
    (datagrams : List (List UInt8)) : Except SocketFault (List α) :=
  match fault with
  | some f => .error f
  | none => .ok (listen decode (List.replicate bufferSize 0) datagrams)

end RobotConsole.Listener
