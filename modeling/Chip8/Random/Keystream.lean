/-
# The stream of random words

Random numbers are the ChaCha keystream with twelve rounds of a key that is
expanded from a 64-bit seed.  The stream is cut into blocks of sixteen words of
32 bits, numbered from zero; a block depends on the seed and its number alone,
so the word at any position can be computed by itself.

The sixteen words that a block starts from:

| words | contents |
| --- | --- |
| 0 to 3 | the constants `expand 32-byte k` |
| 4 to 11 | the key |
| 12, 13 | the number of the block, low word first |
| 14, 15 | zero |

Word `i` of the key comes from state `i + 1` of a linear congruential generator
that starts at the seed: the state is folded to 32 bits and rotated by its top
five bits.
-/

namespace Chip8
namespace Keystream

/-- The word rotated left by `k < 32` bits. -/
def rotateLeft (w k : UInt32) : UInt32 := (w <<< k) ||| (w >>> ((32 : UInt32) - k))

/-- The word rotated right by `k < 32` bits. -/
def rotateRight (w k : UInt32) : UInt32 := (w >>> k) ||| (w <<< ((32 : UInt32) - k))

/-- The next state of the congruential generator. -/
def advance (s : UInt64) : UInt64 := s * 6364136223846793005 + 11634580027462260723

/-- The 32 bits that a state gives. -/
def fold (s : UInt64) : UInt32 :=
  rotateRight (((s >>> 18) ^^^ s) >>> 27).toUInt32 (s >>> 59).toUInt32

/-- Word `i` of the key. -/
def keyWord (seed : UInt64) (i : Nat) : UInt32 := fold (Nat.repeat advance (i + 1) seed)

/-- The sixteen words that a block starts from. -/
def start (seed : UInt64) (number : Nat) : Vector UInt32 16 :=
  #v[0x61707865, 0x3320646E, 0x79622D32, 0x6B206574,
    keyWord seed 0, keyWord seed 1, keyWord seed 2, keyWord seed 3,
    keyWord seed 4, keyWord seed 5, keyWord seed 6, keyWord seed 7,
    UInt32.ofNat number, UInt32.ofNat (number / UInt32.size), 0, 0]

/-- One step of a quarter round: adds word `b` to word `a` and mixes the sum
into word `d`. -/
def mix (s : Vector UInt32 16) (a b d : Fin 16) (k : UInt32) : Vector UInt32 16 :=
  let sum := s[a] + s[b]
  (s.set a sum).set d (rotateLeft (s[d] ^^^ sum) k)

/-- A quarter round on four words. -/
def quarterRound (s : Vector UInt32 16) (a b c d : Fin 16) : Vector UInt32 16 :=
  mix (mix (mix (mix s a b d 16) c d b 12) a b d 8) c d b 7

/-- Two rounds: the four columns of the square of words, then its four diagonals. -/
def doubleRound (s : Vector UInt32 16) : Vector UInt32 16 :=
  let s := quarterRound s 0 4 8 12
  let s := quarterRound s 1 5 9 13
  let s := quarterRound s 2 6 10 14
  let s := quarterRound s 3 7 11 15
  let s := quarterRound s 0 5 10 15
  let s := quarterRound s 1 6 11 12
  let s := quarterRound s 2 7 8 13
  quarterRound s 3 4 9 14

/-- Block `number` of the stream: what twelve rounds make of the starting words,
added to them. -/
def block (seed : UInt64) (number : Nat) : Vector UInt32 16 :=
  let s := start seed number
  Vector.zipWith (· + ·) (Nat.repeat doubleRound 6 s) s

/-- The word at a position of the stream. -/
def word (seed : UInt64) (position : Nat) : UInt32 :=
  (block seed (position / 16))[position % 16]

end Keystream
end Chip8
