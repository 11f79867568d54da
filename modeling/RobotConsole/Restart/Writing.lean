import RobotConsole.Restart.Sum

/-!
The texts that scripts write: `echo` and `printf`.
-/

namespace RobotConsole.Restart.Writing

def escapes : List (Char × Char) :=
  [('a', '\x07'), ('b', '\x08'), ('e', '\x1b'), ('f', '\x0c'), ('n', '\n'), ('r', '\r'), ('t', '\t'),
    ('v', '\x0b'), ('\\', '\\')]

/-- Replaces what stands after backslashes.  An octal number has up to three digits, after a zero in
a text of `echo`.  The second part tells that writing ends there. -/
def unescaped (afterZero : Bool) : Nat → List Char → List Char × Bool
  | 0, cs => (cs, false)
  | _ + 1, [] => ([], false)
  | n + 1, '\\' :: c :: rest =>
    let following (cs : List Char) (rest : List Char) :=
      let (more, ends) := unescaped afterZero n rest
      (cs ++ more, ends)
    if c = 'c' && afterZero then ([], true)
    else
      match escapes.lookup c with
      | some d => following [d] rest
      | none =>
        let places := if afterZero && c = '0' then some rest
          else if !afterZero && c.isDigit then some (c :: rest) else none
        match places with
        | some cs =>
          let used := (cs.take 3).takeWhile fun d => (Sum.digit? 8 d).isSome
          following [Char.ofNat ((Sum.digits 8 0 used).1 % 256)] (cs.drop used.length)
        | none => following ['\\', c] rest
  | n + 1, c :: rest =>
    let (more, ends) := unescaped afterZero n rest
    (c :: more, ends)

def echo (words : List String) : String :=
  let (words, hasEnd) := match words with
    | "-n" :: rest => (rest, false)
    | ws => (ws, true)
  let cs := (" ".intercalate words).toList
  let (text, ends) := unescaped true (cs.length + 1) cs
  String.ofList (if hasEnd && !ends then text ++ ['\n'] else text)

/-- What a conversion of `printf` writes for an argument, and whether the argument is one that it can
take. -/
def converted (c : Char) (argument : String) : List Char × Bool :=
  let digits (base : Nat) (n : Int) : List Char :=
    if n < 0 then Nat.toDigits base (n + 2 ^ 64).toNat else Nat.toDigits base n.toNat
  let number := if argument = "" then some 0 else Sum.held? argument
  let n := number.getD 0
  match c with
  | 's' => (argument.toList, true)
  | 'b' => ((unescaped true (argument.length + 1) argument.toList).1, true)
  | 'c' => (argument.toList.take 1, true)
  | 'x' => (digits 16 n, number.isSome)
  | 'o' => (digits 8 n, number.isSome)
  | 'u' => (digits 10 n, number.isSome)
  | _ => ((toString n).toList, number.isSome)

def padded (flags : List Char) (width : Nat) (cs : List Char) : List Char :=
  let fill := List.replicate (width - cs.length) (if '0' ∈ flags ∧ '-' ∉ flags then '0' else ' ')
  if '-' ∈ flags then cs ++ fill else fill ++ cs

/-- Writes a format once; the arguments that are left and whether all were proper come with it. -/
def once : Nat → List Char → List String → List Char × List String × Bool
  | 0, _, as => ([], as, true)
  | _ + 1, [], as => ([], as, true)
  | n + 1, '%' :: '%' :: rest, as =>
    let (cs, left, ok) := once n rest as
    ('%' :: cs, left, ok)
  | n + 1, '%' :: rest, as =>
    let (flags, rest) := rest.span fun c => c = '-' || c = '+' || c = ' ' || c = '0' || c = '#'
    let (width, rest) := Sum.digits 10 0 rest
    match rest with
    | c :: rest =>
      if "sbcxoudi".toList.contains c then
        let (text, proper) := converted c (as.headD "")
        let (cs, left, ok) := once n rest (as.drop 1)
        (padded flags width text ++ cs, left, proper && ok)
      else ([], as, false)
    | [] => ([], as, false)
  | n + 1, c :: rest, as =>
    let (cs, left, ok) := once n rest as
    (c :: cs, left, ok)

def repeated (format : List Char) : Nat → List String → List Char × Bool
  | 0, _ => ([], true)
  | n + 1, as =>
    let (cs, left, ok) := once (format.length + 1) format as
    if left.isEmpty || left.length = as.length then (cs, ok)
    else
      let (more, ok') := repeated format n left
      (cs ++ more, ok && ok')

/-- What `printf` writes, and whether its arguments were proper. -/
def printf (format : String) (arguments : List String) : String × Bool :=
  let format := (unescaped false (format.length + 1) format.toList).1
  let (cs, ok) := repeated format (arguments.length + 1) arguments
  (String.ofList cs, ok)

end RobotConsole.Restart.Writing
