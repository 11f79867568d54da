import RobotConsole.Restart.Reader

/-!
Reading the commands of a script.  Each reader is given the reader of one command, for the commands
within it; `command` ties the knot.
-/

namespace RobotConsole.Restart.Grammar

open Reader

/-- Words with a meaning of their own where a command may start. -/
def reserved : List String :=
  ["!", "\x7b", "\x7d", "case", "do", "done", "elif", "else", "esac", "fi", "for", "if", "in", "then",
    "until", "while"]

def listEnds : List String := ["\x7d", "do", "done", "elif", "else", "esac", "fi", "then"]

def reserved? (t : Token) : Option String :=
  match t with
  | .word w => w.bare?.filter fun text => text ∈ reserved
  | _ => none

def endsList (t : Token) : Bool :=
  match t with
  | .finish | .closing | .nextBranch => true
  | t => (reserved? t).any fun text => text ∈ listEnds

/-- Puts a sequence of commands together. -/
def joined (before : Option Command) (c : Command) : Command :=
  match before with
  | some b => .sequence b c
  | none => c

/-- Reads the next token; commands may stand in its words. -/
def next (list : Reading Command) : Reading Token := token list

def skipNewlines (list : Reading Command) : Nat → Reading Unit
  | 0 => return ()
  | n + 1 => do
    match ← next list with
    | .newline => skipNewlines list n
    | t => putBack t

def redirection (list : Reading Command) (descriptor : Nat) (connection : Connection) :
    Reading Redirection := do
  match ← next list with
  | .word w =>
    return .mk descriptor connection w
  | _ => failure

/-- What is written without its quotes; nothing else has a meaning in it. -/
def unquoted (quote : Option Char) : List Char → List Char
  | [] => []
  | '\\' :: c :: cs =>
    if quote = some '\'' then '\\' :: unquoted quote (c :: cs) else c :: unquoted quote cs
  | c :: cs =>
    if quote = some c then unquoted none cs
    else if quote.isNone && (c = '\'' || c = '"') then unquoted (some c) cs
    else c :: unquoted quote cs

def isQuoted (cs : List Char) : Bool := cs.any fun c => c = '\'' || c = '"' || c = '\\'

/-- Announces a text that is given within the script. -/
def awaitDocument (list : Reading Command) (descriptor : Nat) (stripsTabs : Bool) :
    Reading Redirection := do
  modify fun r => { r with rest := skipBlanks false r.rest }
  let before := (← get).rest
  match ← next list with
  | .word _ =>
    let written := before.take (before.length - (← get).rest.length)
    let key := (← get).nextKey
    modify fun r =>
      { r with
        nextKey := key + 1
        awaited := r.awaited ++ [⟨key, unquoted none written, stripsTabs, isQuoted written⟩] }
    return .mk descriptor (.document key) []
  | _ => failure

/-- Reads redirections up to a token of another kind. -/
def redirections (list : Reading Command) (acc : List Redirection) : Nat → Reading (List Redirection)
  | 0 => failure
  | n + 1 => do
    match ← next list with
    | .redirect d c =>
      let r ← redirection list d c
      redirections list (r :: acc) n
    | .document d strips =>
      let r ← awaitDocument list d strips
      redirections list (r :: acc) n
    | t =>
      putBack t
      return acc.reverse

/-- A simple command as far as it was read, backwards. -/
structure Words where
  assignments : List (String × Word) := []
  words : List Word := []
  redirections : List Redirection := []

/-- Reads the words of a simple command, or of a function that starts like one. -/
def simple (list self : Reading Command) (c : Words) : Nat → Reading Command
  | 0 => failure
  | n + 1 => do
    match ← next list with
    | .word w =>
      match if c.words.isEmpty then w.assignment? else none with
      | some a => simple list self { c with assignments := a :: c.assignments } n
      | none => simple list self { c with words := w :: c.words } n
    | .redirect d k =>
      let r ← redirection list d k
      simple list self { c with redirections := r :: c.redirections } n
    | .document d strips =>
      let r ← awaitDocument list d strips
      simple list self { c with redirections := r :: c.redirections } n
    | t =>
      match t, c with
      | .opening, ⟨[], [w], []⟩ =>
        let name ← w.bare?
        match ← next list with
        | .closing =>
          if !isName name.toList || name ∈ special then failure
          skipNewlines list (← left)
          return .function name (← self)
        | _ => failure
      | t, c =>
        putBack t
        return .simple c.assignments.reverse c.words.reverse c.redirections.reverse

def pipeline (list self : Reading Command) : Reading Command := do
  let t ← next list
  if reserved? t = some "!" then return .negation (← piped)
  else
    putBack t
    piped
where
  piped : Reading Command := do
    match ← more [] (← left) with
    | [c] => return c
    | cs => return .pipeline cs
  more (acc : List Command) : Nat → Reading (List Command)
    | 0 => failure
    | n + 1 => do
      let c ← self
      match ← next list with
      | .pipe =>
        skipNewlines list (← left)
        more (c :: acc) n
      | t =>
        putBack t
        return (c :: acc).reverse

/-- Reads pipelines that depend on one another. -/
def dependent (list self : Reading Command) : Reading Command := do
  more (← pipeline list self) (← left)
where
  more (before : Command) : Nat → Reading Command
    | 0 => failure
    | n + 1 => do
      match ← next list with
      | .both =>
        skipNewlines list (← left)
        more (.both before (← pipeline list self)) n
      | .either =>
        skipNewlines list (← left)
        more (.either before (← pipeline list self)) n
      | t =>
        putBack t
        return before

/-- Reads the commands of a list after some of them.  The first one is read whether or not the list
ends there, unless `mayBeEmpty`. -/
def listAfter (list self : Reading Command) (mayBeEmpty : Bool) (before : Option Command) :
    Nat → Reading Command
  | 0 => failure
  | n + 1 => do
    skipNewlines list (← left)
    let t ← next list
    putBack t
    let ends := (match t with | .finish => true | _ => (mayBeEmpty || before.isSome) && endsList t)
    if ends then return before.getD .nothing
    else
      let c ← dependent list self
      match ← next list with
      | .background => listAfter list self mayBeEmpty (some (joined before (.background c))) n
      | .next | .newline => listAfter list self mayBeEmpty (some (joined before c)) n
      | t =>
        putBack t
        return joined before c

def expect (list : Reading Command) (text : String) : Reading Unit := do
  if reserved? (← next list) = some text then return () else failure

/-- Reads the rest of a choice after its first test has been announced. -/
def choice (list inner : Reading Command) : Nat → Reading Command
  | 0 => failure
  | n + 1 => do
    let test ← inner
    expect list "then"
    let yes ← inner
    match reserved? (← next list) with
    | some "elif" => return .choice test yes (← choice list inner n)
    | some "else" =>
      let no ← inner
      expect list "fi"
      return .choice test yes no
    | some "fi" => return .choice test yes .nothing
    | _ => failure

/-- Reads words up to a token of another kind, which is given too. -/
def wordsThen (list : Reading Command) (acc : List Word) : Nat → Reading (List Word × Token)
  | 0 => failure
  | n + 1 => do
    match ← next list with
    | .word w => wordsThen list (w :: acc) n
    | t => return (acc.reverse, t)

def body (list inner : Reading Command) : Reading Command := do
  expect list "do"
  let c ← inner
  expect list "done"
  return c

/-- Reads a loop over words. -/
def each (list inner : Reading Command) : Reading Command := do
  match ← next list with
  | .word w =>
    let name ← w.bare?
    if !isName name.toList then failure
    skipNewlines list (← left)
    let t ← next list
    let words ← (
      if reserved? t = some "in" then do
        match ← wordsThen list [] (← left) with
        | (words, .newline) | (words, .next) => return words
        | _ => failure
      else do
        match t with
        | .next => return [[.parameter "@" .value true]]
        | t =>
          putBack t
          return [[.parameter "@" .value true]] : Reading (List Word))
    skipNewlines list (← left)
    return .each name words (← body list inner)
  | _ => failure

/-- Reads the patterns of a branch up to the sign after them. -/
def patterns (list : Reading Command) (t : Token) (acc : List Word) : Nat → Reading (List Word)
  | 0 => failure
  | n + 1 => do
    match t with
    | .word w =>
      match ← next list with
      | .pipe => patterns list (← next list) (w :: acc) n
      | .closing => return (w :: acc).reverse
      | _ => failure
    | _ => failure

def branches (list inner : Reading Command) (acc : List (List Word × Command)) :
    Nat → Reading (List (List Word × Command))
  | 0 => failure
  | n + 1 => do
    skipNewlines list (← left)
    let t ← next list
    if reserved? t = some "esac" then return acc.reverse
    else
      let t ← (match t with | .opening => next list | t => return t : Reading Token)
      let ps ← patterns list t [] (← left)
      let c ← inner
      match ← next list with
      | .nextBranch => branches list inner ((ps, c) :: acc) n
      | t =>
        if reserved? t = some "esac" then return ((ps, c) :: acc).reverse else failure

def select (list inner : Reading Command) : Reading Command := do
  match ← next list with
  | .word w =>
    skipNewlines list (← left)
    expect list "in"
    return .select w (← branches list inner [] (← left))
  | _ => failure

def withRedirections (list : Reading Command) (c : Command) : Reading Command := do
  match ← redirections list [] (← left) with
  | [] => return c
  | rs => return .redirected c rs

def step (list self : Reading Command) : Reading Command := do
  let inner : Reading Command := do listAfter list self false none (← left)
  let branch : Reading Command := do listAfter list self true none (← left)
  let t ← next list
  match t, reserved? t with
  | .opening, _ =>
    let c ← inner
    match ← next list with
    | .closing => withRedirections list (.subshell c)
    | _ => failure
  | _, some "\x7b" =>
    let c ← inner
    expect list "\x7d"
    withRedirections list c
  | _, some "if" => withRedirections list (← choice list inner (← left))
  | _, some "while" =>
    let test ← inner
    withRedirections list (.loop false test (← body list inner))
  | _, some "until" =>
    let test ← inner
    withRedirections list (.loop true test (← body list inner))
  | _, some "for" => withRedirections list (← each list inner)
  | _, some "case" => withRedirections list (← select list branch)
  | .word _, none | .redirect _ _, none | .document _ _, none =>
    putBack t
    simple list self {} (← left)
  | _, _ => failure

/-- The readers of a list of commands in a word and of one command. -/
structure Readers where
  list : Reading Command
  command : Reading Command

/-- The readers for commands nested up to a depth. -/
def readers : Nat → Readers
  | 0 => ⟨failure, failure⟩
  | n + 1 =>
    let inner := readers n
    ⟨do listAfter inner.list inner.command true none (← left), step inner.list inner.command⟩

def lineAfter (r : Readers) (before : Option Command) : Nat → Reading (Option Command)
  | 0 => failure
  | n + 1 => do
    match ← next r.list with
    | .finish => return before
    | .newline => return some (before.getD .nothing)
    | t =>
      putBack t
      let c ← dependent r.list r.command
      match ← next r.list with
      | .background => lineAfter r (some (joined before (.background c))) n
      | .next => lineAfter r (some (joined before c)) n
      | .newline | .finish => return some (joined before c)
      | _ => failure

/-- Reads the commands of the next line; `none` at the end of the script. -/
def line (r : Readers) : Reading (Option Command) := do lineAfter r none (← left)

end RobotConsole.Restart.Grammar
