import RobotConsole.Binary.Arithmetic

/-!
How alike two words are.  Equal letters match that are not far apart, each letter once.  The
likeness is the mean of three shares: of the letters matched in one word, of those in the other, and
of the matched letters that are in the same order in both.
-/

namespace RobotConsole.CommandLine.Similarity

/-- A word's letters, and whether each is matched. -/
abbrev Marks := List (Char × Bool)

/-- Matches a letter with the first one that equals it between two places, where the letters begin
with the one in place `k`. -/
def mark? (first last : Nat) (c : Char) (k : Nat) : Marks → Option Marks
  | [] => none
  | (d, taken) :: rest =>
    if first ≤ k ∧ k ≤ last ∧ c = d ∧ taken = false then some ((d, true) :: rest)
    else (mark? first last c (k + 1) rest).map ((d, taken) :: ·)

/-- The letters matched in one word, from its place `k` on, and the marks in the other. -/
def matchAll (reach k : Nat) (marks : Marks) : List Char → List Char × Marks
  | [] => ([], marks)
  | c :: cs =>
    match mark? (k - reach) (k + reach) c 0 marks with
    | some marks =>
      let (matched, marks) := matchAll reach (k + 1) marks cs
      (c :: matched, marks)
    | none => matchAll reach (k + 1) marks cs

def differences : List Char → List Char → Nat
  | a :: as, b :: bs => (if a = b then 0 else 1) + differences as bs
  | _, _ => 0

def likeness (a b : List Char) : Double :=
  let reach := max a.length b.length / 2 - 1
  let (matched, marks) := matchAll reach 0 (b.map fun c => (c, false)) a
  let m := matched.length
  let swaps := differences matched ((marks.filter Prod.snd).map Prod.fst) / 2
  let share (n d : Nat) : Double := Binary.ofNat n / Binary.ofNat d
  if m = 0 then 0
  else (share m a.length + share m b.length + share (m - swaps) m) / 3

/-- Words less alike than this are not taken for one another. -/
def threshold : Double := 0.7

/-- The better of two choices, the later of equal ones. -/
def better (word : List Char) (best : Option (List Char)) (name : List Char) :
    Option (List Char) :=
  let l := likeness word name
  if threshold < l ∧ (best.all fun b => likeness word b ≤ l) then some name else best

def closest? (word : List Char) (names : List (List Char)) : Option (List Char) :=
  names.foldl (better word) none

end RobotConsole.CommandLine.Similarity
