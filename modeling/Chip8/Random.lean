/-
# The random generator

A generator is a seed and the number of words drawn so far.  Each draw takes one
word of the seed's stream and gives its low eight bits, so the `k`-th byte
depends on nothing but the seed and `k`.
-/

import Chip8.Random.Keystream

namespace Chip8

/-- A place in the stream of a seed. -/
structure Random where
  seed : UInt64
  drawn : Nat
  deriving DecidableEq, Repr

namespace Random

/-- A generator that has drawn nothing. -/
def ofSeed (seed : UInt64) : Random := ⟨seed, 0⟩

/-- The byte at a position of the stream. -/
def byteAt (seed : UInt64) (position : Nat) : UInt8 := (Keystream.word seed position).toUInt8

/-- Draws a byte. -/
def draw (r : Random) : UInt8 × Random := (byteAt r.seed r.drawn, { r with drawn := r.drawn + 1 })

/-- The generator after `n` more draws. -/
def skip (r : Random) (n : Nat) : Random := { r with drawn := r.drawn + n }

end Random
end Chip8
