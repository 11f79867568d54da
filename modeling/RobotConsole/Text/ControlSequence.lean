/-!
Text without what steers a terminal.  Control characters are left out, but for the blanks among
them, and so are control sequences: an escape character and what belongs to it.  How far a sequence
goes depends on the character after the escape character.
-/

namespace RobotConsole.Text

/-- Where a terminal is in a text. -/
inductive TerminalState where
  | text
  /-- After an escape character. -/
  | escape
  /-- After an escape character and punctuation, before the letter that ends the sequence. -/
  | escapePunctuation
  /-- Among the parameters of a control sequence. -/
  | parameters
  /-- In a command to the system, which a bell may end. -/
  | systemCommand
  /-- In a string that only another control sequence ends. -/
  | string
  deriving DecidableEq, Repr

namespace TerminalState

def escapeChar : Char := '\x1b'

def bell : Char := '\x07'

/-- The characters that break a sequence off. -/
def cancels (c : Char) : Bool := c = '\x18' || c = '\x1a'

/-- The blanks among the control characters. -/
def isBlankControl (c : Char) : Bool := c = '\t' || c = '\n' || c = '\x0c' || c = '\r'

def afterEscape (c : Char) : TerminalState :=
  if c = '[' then .parameters
  else if c = ']' then .systemCommand
  else if c = 'P' ∨ c = 'X' ∨ c = '^' ∨ c = '_' then .string
  else if c ≤ '/' then .escapePunctuation
  else if c < '\x7f' then .text
  else .escape

/-- What becomes of the state at a character, and whether the character is shown. -/
def next (s : TerminalState) (c : Char) : TerminalState × Bool :=
  if c = escapeChar then (.escape, false)
  else if cancels c then (.text, false)
  else
    match s with
    | .systemCommand => (if c = bell then .text else .systemCommand, false)
    | .string => (.string, false)
    | s =>
      if isBlankControl c then (.text, true)
      else if c < ' ' then (s, false)
      else
        match s with
        | .escape => (afterEscape c, false)
        | .escapePunctuation => (if '0' ≤ c ∧ c < '\x7f' then .text else s, false)
        | .parameters => (if '@' ≤ c ∧ c < '\x7f' then .text else s, false)
        | s => (s, c ≠ '\x7f')

end TerminalState

/-- The characters that a terminal shows, from a state on. -/
def shown (s : TerminalState) : List Char → List Char
  | [] => []
  | c :: cs =>
    let (s, keep) := s.next c
    if keep then c :: shown s cs else shown s cs

def withoutControls (text : String) : String := String.ofList (shown .text text.toList)

end RobotConsole.Text
