/-!
A stream of random words.  The words are the blocks of the ChaCha function with eight rounds, whose
key is drawn from a seed by a linear congruence.
-/

namespace RobotConsole

def rotateLeft (x n : UInt32) : UInt32 := (x <<< n) ||| (x >>> (32 - n))

/-- The sixteen words of a block as four rows. -/
structure Grid where
  a : List UInt32
  b : List UInt32
  c : List UInt32
  d : List UInt32

namespace Grid

def sum (xs ys : List UInt32) : List UInt32 := List.zipWith (· + ·) xs ys

/-- The bitwise difference of two rows, each word turned by `n` bits. -/
def turned (n : UInt32) (xs ys : List UInt32) : List UInt32 :=
  List.zipWith (fun x y => rotateLeft (x ^^^ y) n) xs ys

def round (g : Grid) : Grid :=
  let a := sum g.a g.b
  let d := turned 16 g.d a
  let c := sum g.c d
  let b := turned 12 g.b c
  let a := sum a b
  let d := turned 8 d a
  let c := sum c d
  let b := turned 7 b c
  ⟨a, b, c, d⟩

/-- Moves the diagonals into the columns. -/
def skew (g : Grid) : Grid := ⟨g.a, g.b.rotateLeft 1, g.c.rotateLeft 2, g.d.rotateLeft 3⟩

def unskew (g : Grid) : Grid := ⟨g.a, g.b.rotateLeft 3, g.c.rotateLeft 2, g.d.rotateLeft 1⟩

def doubleRound (g : Grid) : Grid := g.round.skew.round.unskew

def rounds : Nat → Grid → Grid
  | 0, g => g
  | n + 1, g => rounds n g.doubleRound

def mixed (g : Grid) : List UInt32 :=
  let r := g.rounds 4
  sum r.a g.a ++ sum r.b g.b ++ sum r.c g.c ++ sum r.d g.d

end Grid

/-- A stream: its key of eight words, the number of the next block, and the words left of this
one. -/
structure WordStream where
  key : List UInt32
  block : UInt64
  left : List UInt32

namespace WordStream

def constants : List UInt32 := [0x61707865, 0x3320646e, 0x79622d32, 0x6b206574]

def blockWords (key : List UInt32) (block : UInt64) : List UInt32 :=
  Grid.mixed ⟨constants, key.take 4, key.drop 4, [block.toUInt32, (block >>> 32).toUInt32, 0, 0]⟩

def keyWords : Nat → UInt64 → List UInt32
  | 0, _ => []
  | n + 1, state =>
    let state := state * 6364136223846793005 + 11634580027462260723
    let word := (((state >>> 18) ^^^ state) >>> 27).toUInt32
    rotateLeft word ((32 : UInt32) - (state >>> 59).toUInt32) :: keyWords n state

def ofSeed (seed : UInt64) : WordStream := ⟨keyWords 8 seed, 0, []⟩

def next (s : WordStream) : UInt32 × WordStream :=
  match s.left with
  | w :: rest => (w, { s with left := rest })
  | [] =>
    match blockWords s.key s.block with
    | w :: rest => (w, ⟨s.key, s.block + 1, rest⟩)
    | [] => (0, s)

end WordStream
end RobotConsole
