import PageJournal.Random.Cipher
/-!
Reproducible random words and choices. A seed is stretched to a key; the key gives an endless
stream of words, drawn four blocks at a time. A choice below a bound draws words until one falls in
a zone whose size is a multiple of the bound, so every outcome is equally likely.
-/
namespace PageJournal.Random

/-- A place in the stream of a key. -/
structure Stream where
  key : Key
  /-- The number of the next block. -/
  counter : UInt64
  /-- Words that were made and not drawn yet. -/
  ready : List UInt32
  deriving DecidableEq, Repr

/-- One step of the generator that stretches seeds: its word, and its next state. -/
def stretchStep (state : UInt64) : UInt32 × UInt64 :=
  let state := state * 6364136223846793005 + 11634580027462260723
  let x := (((state >>> 18) ^^^ state) >>> 27).toUInt32
  let turn := (state >>> 59).toUInt32
  ((x >>> turn) ||| (x <<< ((32 - turn) % 32)), state)

/-- Four words from a seed, and the state behind them. -/
def stretchRow (state : UInt64) : Row × UInt64 :=
  let (a, state) := stretchStep state
  let (b, state) := stretchStep state
  let (c, state) := stretchStep state
  let (d, state) := stretchStep state
  (⟨a, b, c, d⟩, state)

def Key.ofSeed (seed : UInt64) : Key :=
  let (low, state) := stretchRow seed
  let (high, _) := stretchRow state
  ⟨low, high⟩

namespace Stream

def ofSeed (seed : UInt64) : Stream := ⟨Key.ofSeed seed, 0, []⟩

/-- The words of the next four blocks. -/
def nextBlocks (s : Stream) : List UInt32 :=
  s.key.block s.counter ++ s.key.block (s.counter + 1) ++ s.key.block (s.counter + 2) ++
    s.key.block (s.counter + 3)

def word32 (s : Stream) : UInt32 × Stream :=
  match s.ready with
  | w :: rest => (w, { s with ready := rest })
  | [] =>
    match s.nextBlocks with
    | w :: rest => (w, { s with counter := s.counter + 4, ready := rest })
    | [] => (0, s)

/-- Draws two words as one of double width, the low half first. -/
def word64 (s : Stream) : UInt64 × Stream :=
  let (low, s) := s.word32
  let (high, s) := s.word32
  (low.toUInt64 ||| (high.toUInt64 <<< 32), s)

/-- A word of the width that a choice is made with. -/
inductive Width where
  | narrow
  | wide
  deriving DecidableEq, Repr

def Width.bits : Width → Nat
  | narrow => 32
  | wide => 64

def word (s : Stream) : Width → Nat × Stream
  | .narrow => let (w, s) := s.word32; (w.toNat, s)
  | .wide => let (w, s) := s.word64; (w.toNat, s)

/-- The greatest low half with which a draw below `n` is accepted. -/
def zone (bits n : Nat) : Nat := n <<< (bits - (Nat.log2 n + 1)) - 1

/-- Chooses a number below `n` in at most so many draws; zero if all of them are refused. -/
def belowIn (width : Width) (n : Nat) : Nat → Stream → Nat × Stream
  | 0, s => (0, s)
  | draws + 1, s =>
    let (w, s) := s.word width
    let product := w * n
    if product % 2 ^ width.bits ≤ zone width.bits n then (product / 2 ^ width.bits, s)
    else belowIn width n draws s

/-- How many draws a choice may take; each is accepted with a chance of one half at least. -/
def patience : Nat := 1024

def below (width : Width) (n : Nat) (s : Stream) : Nat × Stream := belowIn width n patience s

/-- The letters and digits, in the order in which choices count them. -/
def alphanumerics : List Char :=
  "ABCDEFGHIJKLMNOPQRSTUVWXYZabcdefghijklmnopqrstuvwxyz0123456789".toList

/-- Chooses a letter or digit in at most so many draws. -/
def alphanumericIn : Nat → Stream → Char × Stream
  | 0, s => ('A', s)
  | draws + 1, s =>
    let (w, s) := s.word32
    match alphanumerics[(w >>> 26).toNat]? with
    | some c => (c, s)
    | none => alphanumericIn draws s

def alphanumeric (s : Stream) : Char × Stream := alphanumericIn patience s

def alphanumericText : Nat → Stream → List Char × Stream
  | 0, s => ([], s)
  | n + 1, s =>
    let (c, s) := s.alphanumeric
    let (text, s) := alphanumericText n s
    (c :: text, s)

theorem length_alphanumericText (n : Nat) (s : Stream) : (alphanumericText n s).1.length = n := by
  induction n generalizing s with
  | zero => rfl
  | succ n ih => simp [alphanumericText, ih]

end Stream

end PageJournal.Random
