import RobotConsole.Text.Hidden

/-!
Texts in messages.  A text stands between quotes, and a character that cannot be seen by itself is
written as an escape with its number.
-/

namespace RobotConsole.Text

def visibleEscapes : List (Char × Char) :=
  [('\x00', '0'), ('\t', 't'), ('\n', 'n'), ('\r', 'r'), ('"', '"'), ('\\', '\\')]

def visibleChar (c : Char) : List Char :=
  match visibleEscapes.lookup c with
  | some e => ['\\', e]
  | none =>
    if isHidden c then '\\' :: 'u' :: '\x7b' :: Nat.toDigits 16 c.toNat ++ ['\x7d'] else [c]

def visible (s : String) : String := String.ofList ('"' :: s.toList.flatMap visibleChar ++ ['"'])

end RobotConsole.Text
