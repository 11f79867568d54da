import RobotConsole.Binary.Numeral
import RobotConsole.Text.Integer
import RobotConsole.Text.Utf8

/-!
JSON documents.  A document is the tree of its syntax: numbers keep their digits and strings their
escapes, since a reader looks at their values only where it needs them.  The text of a document is
a list of octets, each seen as the character of the same number.
-/

namespace RobotConsole

inductive Json where
  | null
  | bool (value : Bool)
  | number (numeral : Numeral)
  /-- What stands between the quotes. -/
  | string (raw : List Char)
  | list (items : List Json)
  /-- The members in order, each with what stands between the quotes of its name. -/
  | object (members : List (List Char × Json))

namespace Json

def ofOctets (bytes : List UInt8) : List Char := bytes.map fun b => Char.ofNat b.toNat

def toOctets (cs : List Char) : List UInt8 := cs.map Char.toUInt8

/-- The characters that may stand after a backslash, and what they stand for. -/
def escapes : List (Char × Char) :=
  [('"', '"'), ('\\', '\\'), ('/', '/'), ('b', '\x08'), ('f', '\x0c'), ('n', '\n'), ('r', '\r'),
    ('t', '\t')]

def hex4? (a b c d : Char) : Option Nat :=
  match Text.hexDigit? a, Text.hexDigit? b, Text.hexDigit? c, Text.hexDigit? d with
  | some a, some b, some c, some d => some (((a * 16 + b) * 16 + c) * 16 + d)
  | _, _, _, _ => none

/-- The octets that a string stands for.  Halves of a pair must come together. -/
def unescape? : List Char → Option (List UInt8)
  | [] => some []
  | '\\' :: 'u' :: a :: b :: c :: d :: rest =>
    match hex4? a b c d with
    | none => none
    | some n =>
      if 0xD800 ≤ n ∧ n < 0xDC00 then
        match rest with
        | '\\' :: 'u' :: a :: b :: c :: d :: rest =>
          match hex4? a b c d with
          | none => none
          | some m =>
            if 0xDC00 ≤ m ∧ m < 0xE000 then
              let code := 0x10000 + (n - 0xD800) * 0x400 + (m - 0xDC00)
              (unescape? rest).map (String.utf8EncodeChar (Char.ofNat code) ++ ·)
            else none
        | _ => none
      else if 0xDC00 ≤ n ∧ n < 0xE000 then none
      else (unescape? rest).map (String.utf8EncodeChar (Char.ofNat n) ++ ·)
  | '\\' :: e :: rest =>
    match escapes.lookup e with
    | none => none
    | some c => (unescape? rest).map (c.toUInt8 :: ·)
  | c :: rest => (unescape? rest).map (c.toUInt8 :: ·)

/-- The text of a string, if its escapes and its octets stand for one. -/
def text? (raw : List Char) : Option String :=
  match unescape? raw with
  | none => none
  | some bytes => (Text.Utf8.decode? bytes).map String.ofList

mutual

def depth : Json → Nat
  | .list items => listDepth items + 1
  | .object members => membersDepth members + 1
  | _ => 0

def listDepth : List Json → Nat
  | [] => 0
  | j :: rest => max (depth j) (listDepth rest)

def membersDepth : List (List Char × Json) → Nat
  | [] => 0
  | (_, j) :: rest => max (depth j) (membersDepth rest)

end

mutual

/-- The text of a document, without blanks. -/
def chars : Json → List Char
  | .null => "null".toList
  | .bool true => "true".toList
  | .bool false => "false".toList
  | .number n => n.chars
  | .string raw => '"' :: raw ++ ['"']
  | .list items => '[' :: listChars items ++ [']']
  | .object members => '\x7b' :: membersChars members ++ ['\x7d']

def listChars : List Json → List Char
  | [] => []
  | [j] => chars j
  | j :: rest => chars j ++ ',' :: listChars rest

def membersChars : List (List Char × Json) → List Char
  | [] => []
  | [(name, j)] => '"' :: name ++ '"' :: ':' :: chars j
  | (name, j) :: rest => '"' :: name ++ '"' :: ':' :: chars j ++ ',' :: membersChars rest

end

/-- The octets of a document, for documents of seven-bit characters. -/
def octets (j : Json) : List UInt8 := toOctets j.chars

end Json
end RobotConsole
