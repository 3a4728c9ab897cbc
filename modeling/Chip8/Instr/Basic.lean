/-
# The instructions

The 34 instructions of the CHIP-8 machine.  Those of one shape are one
constructor: the six conditional skips differ in their test, the nine
register-to-register operations in their operator.  `x` and `y` name registers,
`b` is a byte and `n` a digit that stand in the instruction itself.
-/

import Chip8.Word

namespace Chip8

/-- What a conditional skip asks. -/
inductive Test where
  /-- Register `x` holds `b`. -/
  | byteEq (x : Reg) (b : UInt8)
  /-- Register `x` does not hold `b`. -/
  | byteNe (x : Reg) (b : UInt8)
  /-- Registers `x` and `y` hold the same byte. -/
  | regEq (x y : Reg)
  /-- Registers `x` and `y` hold different bytes. -/
  | regNe (x y : Reg)
  /-- The key numbered by register `x` is held. -/
  | keyDown (x : Reg)
  /-- The key numbered by register `x` is not held. -/
  | keyUp (x : Reg)
  deriving DecidableEq, Repr

/-- The operators between two registers.  `sub` subtracts the second operand
from the first, `rsub` the first from the second; the shifts move the second
operand by one bit. -/
inductive AluOp where
  | copy
  | or
  | and
  | xor
  | add
  | sub
  | shr
  | rsub
  | shl
  deriving DecidableEq, Repr

/-- An instruction. -/
inductive Instr where
  /-- Turns every pixel off. -/
  | clear
  /-- Returns from a subroutine. -/
  | ret
  /-- Jumps to an address. -/
  | jump (target : Address)
  /-- Calls the subroutine at an address. -/
  | call (target : Address)
  /-- Skips the next instruction if the test holds. -/
  | skip (test : Test)
  /-- Sets register `x` to `b`. -/
  | loadByte (x : Reg) (b : UInt8)
  /-- Adds `b` to register `x`. -/
  | addByte (x : Reg) (b : UInt8)
  /-- Combines registers `x` and `y` into register `x`. -/
  | alu (op : AluOp) (x y : Reg)
  /-- Sets the index register to an address. -/
  | loadIndex (a : Address)
  /-- Jumps to an address plus register 0. -/
  | jumpOffset (a : Address)
  /-- Sets register `x` to a random byte, masked by `b`. -/
  | random (x : Reg) (b : UInt8)
  /-- Draws the `n` bytes at the index register, at column `x` and row `y`. -/
  | draw (x y : Reg) (n : Nibble)
  /-- Reads the delay timer into register `x`. -/
  | readDelay (x : Reg)
  /-- Waits for a key and puts its number into register `x`. -/
  | awaitKey (x : Reg)
  /-- Sets the delay timer to register `x`. -/
  | setDelay (x : Reg)
  /-- Sets the sound timer to register `x`. -/
  | setSound (x : Reg)
  /-- Adds register `x` to the index register. -/
  | addIndex (x : Reg)
  /-- Points the index register at the glyph numbered by register `x`. -/
  | glyph (x : Reg)
  /-- Stores the three decimal digits of register `x`. -/
  | decimal (x : Reg)
  /-- Stores registers 0 to `x` in memory. -/
  | save (x : Reg)
  /-- Loads registers 0 to `x` from memory. -/
  | restore (x : Reg)
  deriving DecidableEq, Repr

end Chip8
