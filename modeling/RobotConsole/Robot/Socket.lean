import RobotConsole.Robot.Radio

/-!
What goes wrong with sockets, and why a primitive is not sent.
-/

namespace RobotConsole

inductive SocketFault where
  | unsupportedFamily
  | unreachableNetwork
  deriving DecidableEq, Repr

def SocketFault.message : SocketFault → String
  | .unsupportedFamily => "Address family not supported by protocol (os error 97)"
  | .unreachableNetwork => "Network is unreachable (os error 101)"

/-- Why a primitive was not sent: what failed, and then each cause of that. -/
structure SendFailure where
  causes : List String
  deriving DecidableEq, Repr

namespace SendFailure

def text (f : SendFailure) : String := String.intercalate ": " f.causes

def atEndpoint (e : Endpoint) (f : SocketFault) : SendFailure :=
  ⟨[s!"failed to send primitive to {e.text}", f.message]⟩

end SendFailure

end RobotConsole
