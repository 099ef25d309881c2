/-!
The ChaCha block function on lanes: a state is four rows of four words, and a round works on all
columns at once. Diagonal rounds are column rounds between two turns of the rows.
-/
namespace PageJournal.Random

structure Row where
  a : UInt32
  b : UInt32
  c : UInt32
  d : UInt32
  deriving DecidableEq, Repr

namespace Row

def zipWith (f : UInt32 → UInt32 → UInt32) (x y : Row) : Row :=
  ⟨f x.a y.a, f x.b y.b, f x.c y.c, f x.d y.d⟩

def add (x y : Row) : Row := zipWith (· + ·) x y

/-- A word whose bits are turned to the left by less than its width. -/
def rotated (n : UInt32) (w : UInt32) : UInt32 := (w <<< n) ||| (w >>> (32 - n))

/-- The exclusive or of two rows, each word turned to the left. -/
def mix (n : UInt32) (x y : Row) : Row := zipWith (fun v w => rotated n (v ^^^ w)) x y

/-- The words moved one place to the left, round the end. -/
def turn (x : Row) : Row := ⟨x.b, x.c, x.d, x.a⟩

def toList (x : Row) : List UInt32 := [x.a, x.b, x.c, x.d]

end Row

structure Block where
  first : Row
  second : Row
  third : Row
  fourth : Row
  deriving DecidableEq, Repr

namespace Block

/-- A quarter round on every column. -/
def columns (s : Block) : Block :=
  let a := s.first.add s.second
  let d := s.fourth.mix 16 a
  let c := s.third.add d
  let b := s.second.mix 12 c
  let a := a.add b
  let d := d.mix 8 a
  let c := c.add d
  let b := b.mix 7 c
  ⟨a, b, c, d⟩

/-- Brings the diagonals into columns. -/
def slant (s : Block) : Block := ⟨s.first, s.second.turn, s.third.turn.turn, s.fourth.turn.turn.turn⟩

/-- Brings the columns back into diagonals. -/
def unslant (s : Block) : Block :=
  ⟨s.first, s.second.turn.turn.turn, s.third.turn.turn, s.fourth.turn⟩

/-- A column round, then a diagonal round. -/
def doubleRound (s : Block) : Block := s.columns.slant.columns.unslant

/-- The state after so many double rounds. -/
def rounds : Nat → Block → Block
  | 0, s => s
  | n + 1, s => rounds n s.doubleRound

def add (s t : Block) : Block :=
  ⟨s.first.add t.first, s.second.add t.second, s.third.add t.third, s.fourth.add t.fourth⟩

def toList (s : Block) : List UInt32 :=
  s.first.toList ++ s.second.toList ++ s.third.toList ++ s.fourth.toList

end Block

structure Key where
  low : Row
  high : Row
  deriving DecidableEq, Repr

/-- The words "expand 32-byte k". -/
def constants : Row := ⟨0x61707865, 0x3320646e, 0x79622d32, 0x6b206574⟩

/-- The input of the block function: constants, key, and the number of the block. -/
def Key.input (k : Key) (counter : UInt64) : Block :=
  ⟨constants, k.low, k.high, ⟨counter.toUInt32, (counter >>> 32).toUInt32, 0, 0⟩⟩

/-- The words of one block after twelve rounds. -/
def Key.block (k : Key) (counter : UInt64) : List UInt32 :=
  let input := k.input counter
  ((input.rounds 6).add input).toList

end PageJournal.Random
