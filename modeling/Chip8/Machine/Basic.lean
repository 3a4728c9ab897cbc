/-
# The machine

The state of a CHIP-8 machine.  Beside what a program can reach it holds the
host's flags, the number of cycles executed and the random generator.  Return
addresses are kept with the latest in front; `stack` lists them as the program
pushed them, oldest first.

A fresh machine has the font in memory and `0x200` in its program counter;
everything else is zero, dark, released or clear.
-/

import Chip8.Flags
import Chip8.Keypad
import Chip8.Memory.Basic
import Chip8.Random
import Chip8.Screen.Basic
import Chip8.Timers

namespace Chip8

/-- The state of a machine. -/
structure Machine where
  flags : Flags
  memory : Memory
  screen : Screen
  /-- The return addresses of the calls under way, the latest first. -/
  returns : List UInt16
  /-- The program counter. -/
  pc : UInt16
  /-- The index register. -/
  index : UInt16
  /-- The registers; the last one also takes flags. -/
  registers : Vector UInt8 16
  timers : Timers
  keypad : Keypad
  /-- The number of instructions executed. -/
  cycle : UInt64
  random : Random
  deriving DecidableEq

namespace Machine

/-- The number of return addresses that there is room for. -/
def stackDepth : Nat := 16

/-- The register that takes the flag of an operation. -/
def flagReg : Reg := 15

/-- A fresh machine with a random generator. -/
def fresh (random : Random) : Machine where
  flags := .clear
  memory := .fresh
  screen := .blank
  returns := []
  pc := UInt16.ofNat Memory.Region.program.start
  index := 0
  registers := .replicate 16 0
  timers := .zero
  keypad := .released
  cycle := 0
  random := random

/-- A fresh machine whose random numbers follow from a seed. -/
def ofSeed (seed : UInt64) : Machine := fresh (.ofSeed seed)

/-- The return addresses, oldest first. -/
def stack (m : Machine) : List UInt16 := m.returns.reverse

/-- The contents of a register. -/
def reg (m : Machine) (x : Reg) : UInt8 := m.registers[x]

/-- Sets a register. -/
def setReg (m : Machine) (x : Reg) (b : UInt8) : Machine :=
  { m with registers := m.registers.set x b }

/-- The two machines are equal, part by part, but for their random generators. -/
def agrees (a b : Machine) : Bool :=
  a.flags == b.flags && a.memory == b.memory && a.screen == b.screen && a.stack == b.stack
    && a.pc == b.pc && a.index == b.index && a.registers == b.registers && a.timers == b.timers
    && a.keypad == b.keypad && a.cycle == b.cycle

/-- Turning the return addresses round keeps their number. -/
theorem length_stack (m : Machine) : m.stack.length = m.returns.length := List.length_reverse

/-- The stack is empty if there is nothing to return to. -/
theorem stack_eq_nil_iff (m : Machine) : m.stack = [] ↔ m.returns = [] := List.reverse_eq_nil_iff

/-- The stack holds the return addresses and nothing else. -/
theorem mem_stack {m : Machine} {a : UInt16} : a ∈ m.stack ↔ a ∈ m.returns := List.mem_reverse

/-- **No part is left out of the comparison** but the random generator. -/
theorem agrees_iff (a b : Machine) : a.agrees b = true ↔ { a with random := b.random } = b := by
  rcases a
  rcases b
  simp only [agrees, stack, Bool.and_eq_true, beq_iff_eq, List.reverse_inj, mk.injEq, and_assoc,
    and_true]

/-- A machine agrees with itself. -/
theorem agrees_refl (m : Machine) : m.agrees m = true := (agrees_iff m m).2 rfl

end Machine
end Chip8
