/-!
Texts as octets.  `decode?` refuses octets that are not the shortest form of a character.
-/

namespace RobotConsole.Text.Utf8

def encode (cs : List Char) : List UInt8 := cs.flatMap String.utf8EncodeChar

/-- The character of a code point that needs at least `least` to be written at this length. -/
def char? (least code : Nat) : Option Char :=
  if least ≤ code ∧ code.isValidChar then some (Char.ofNat code) else none

/-- The six bits of a continuation octet. -/
def continuation? (b : UInt8) : Option Nat :=
  if b.toNat / 64 = 2 then some (b.toNat % 64) else none

def decode? : List UInt8 → Option (List Char)
  | [] => some []
  | a :: rest =>
    let n := a.toNat
    if n < 0x80 then (decode? rest).map (Char.ofNat n :: ·)
    else
      match rest with
      | [] => none
      | b :: rest =>
        match continuation? b with
        | none => none
        | some x =>
          if n < 0xC0 then none
          else if n < 0xE0 then
            match char? 0x80 (n % 32 * 64 + x) with
            | none => none
            | some c => (decode? rest).map (c :: ·)
          else
            match rest with
            | [] => none
            | b :: rest =>
              match continuation? b with
              | none => none
              | some y =>
                if n < 0xF0 then
                  match char? 0x800 ((n % 16 * 64 + x) * 64 + y) with
                  | none => none
                  | some c => (decode? rest).map (c :: ·)
                else
                  match rest with
                  | [] => none
                  | b :: rest =>
                    match continuation? b with
                    | none => none
                    | some z =>
                      if n < 0xF8 then
                        match char? 0x10000 (((n % 8 * 64 + x) * 64 + y) * 64 + z) with
                        | none => none
                        | some c => (decode? rest).map (c :: ·)
                      else none

end RobotConsole.Text.Utf8
