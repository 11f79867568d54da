import RobotConsole.Restart.State

/-!
The options of a script and of a shell: letters, or names after the letter `o`.
-/

namespace RobotConsole.Restart.Builtin

def optionNames : List (String × Char) :=
  [("errexit", 'e'), ("noglob", 'f'), ("ignoreeof", 'I'), ("interactive", 'i'), ("monitor", 'm'),
    ("noexec", 'n'), ("stdin", 's'), ("xtrace", 'x'), ("verbose", 'v'), ("vi", 'V'), ("emacs", 'E'),
    ("noclobber", 'C'), ("allexport", 'a'), ("notify", 'b'), ("nounset", 'u'), ("nolog", 'l'),
    ("debug", 'd')]

def optionLetters : List Char := "efIimnsxvVECabu".toList

def withOption (on : Bool) (letter : Char) (options : List Char) : List Char :=
  if on then letter :: options.filter (· ≠ letter) else options.filter (· ≠ letter)

structure Options where
  letters : List Char
  /-- The text to be run follows. -/
  hasScript : Bool := false
  /-- The options were ended by a sign of their own. -/
  ended : Bool := false
  rest : List String := []

/-- Reads the letters of one word of options, and tells how many words of names it takes. -/
def optionWord (on : Bool) (asShell : Bool) (o : Options) : List Char → List String → Option Options
  | [], rest => some { o with rest }
  | 'c' :: cs, rest => if asShell then optionWord on asShell { o with hasScript := true } cs rest else none
  | 'o' :: cs, rest =>
    match rest with
    | [] => optionWord on asShell o cs []
    | name :: rest =>
      match optionNames.lookup name with
      | some letter => optionWord on asShell { o with letters := withOption on letter o.letters } cs rest
      | none => none
  | c :: cs, rest =>
    if c ∈ optionLetters || (asShell && c = 'l') then
      optionWord on asShell { o with letters := withOption on c o.letters } cs rest
    else none

def options (asShell : Bool) (o : Options) : Nat → List String → Option Options
  | 0, _ => none
  | _ + 1, [] => some { o with rest := [] }
  | n + 1, w :: ws =>
    match w.toList with
    | ['-'] => some { o with rest := ws, ended := !asShell && !ws.isEmpty }
    | ['-', '-'] => some { o with rest := ws, ended := true }
    | '-' :: cs => more true cs n ws
    | '+' :: cs => more false cs n ws
    | _ => some { o with rest := w :: ws }
where
  more (on : Bool) (cs : List Char) (n : Nat) (ws : List String) : Option Options :=
    match optionWord on asShell o cs ws with
    | some o => options asShell o n o.rest
    | none => none

end RobotConsole.Restart.Builtin
