import RobotConsole.Pattern.Reader

/-!
What an expression may mean.  Properties of characters, classes that are known by a letter and the
cases of letters are not supported, nor are the edges of words; where flags turn Unicode off, only
expressions are allowed that match whole characters.
-/

namespace RobotConsole.Pattern

structure Mode where
  caseless : Bool
  unicode : Bool
  deriving DecidableEq, Repr

namespace Mode

def standard : Mode := ⟨false, true⟩

def with_ (m : Mode) (items : List FlagItem) : Mode :=
  ⟨(flagState? .caseless items).getD m.caseless, (flagState? .unicode items).getD m.unicode⟩

end Mode

inductive Obstacle where
  | refused (r : Refusal)
  /-- It looks for edges of words. -/
  | wordEdges
  deriving DecidableEq, Repr

def atomFault? (m : Mode) : Atom → Option (Fault × Span)
  | .literal _ isOctet s =>
    if m.unicode then if m.caseless then some (.letterCaseUnknown, s) else none
    else if isOctet then some (.matchesBrokenText, s)
    else none
  | .letterClass others s =>
    if m.unicode then some (.characterClassUnknown, s)
    else if others then some (.matchesBrokenText, s)
    else none
  | .property s => some (if m.unicode then .propertyUnknown else .unicodeNotAllowed, s)
  | .dot s => if m.unicode then none else some (.matchesBrokenText, s)
  | .anchor _ => none
  | .wordEdge _ => none

/-- A fault of an atom within a class; the case of a character matters at the end of the class. -/
def memberFault? (m : Mode) : Atom → Option (Fault × Span)
  | .literal c _ s => if m.unicode ∨ c.toNat < 0x80 then none else some (.unicodeNotAllowed, s)
  | a => atomFault? m a

/-- A fault of the parts from a mode on, where `outer` has the modes around the open groups. -/
def fault? (m : Mode) (outer : List Mode) : List Part → Option (Fault × Span)
  | [] => none
  | p :: rest =>
    match p with
    | .atom a => (atomFault? m a).or (fault? m outer rest)
    | .member a => (memberFault? m a).or (fault? m outer rest)
    | .namedMember s =>
      if m.unicode ∧ m.caseless then some (.letterCaseUnknown, s) else fault? m outer rest
    | .classEnd others s =>
      if m.unicode then
        if m.caseless then some (.letterCaseUnknown, s) else fault? m outer rest
      else if others then some (.matchesBrokenText, s)
      else fault? m outer rest
    | .flags items => fault? (m.with_ items) outer rest
    | .groupStart items => fault? (m.with_ items) (m :: outer) rest
    | .groupEnd => fault? (outer.headD m) outer.tail rest

/-- Whether the parts look for an edge of a word where Unicode is on. -/
def hasWordEdge (m : Mode) (outer : List Mode) : List Part → Bool
  | [] => false
  | .atom (.wordEdge _) :: rest => m.unicode || hasWordEdge m outer rest
  | .flags items :: rest => hasWordEdge (m.with_ items) outer rest
  | .groupStart items :: rest => hasWordEdge (m.with_ items) (m :: outer) rest
  | .groupEnd :: rest => hasWordEdge (outer.headD m) outer.tail rest
  | _ :: rest => hasWordEdge m outer rest

def obstacle? (cs : List Char) : Option Obstacle :=
  match parts cs with
  | .error r => some (.refused r)
  | .ok ps =>
    match fault? .standard [] ps with
    | some (f, s) => some (.refused ⟨f, s, none⟩)
    | none => if hasWordEdge .standard [] ps then some .wordEdges else none

end RobotConsole.Pattern
