/-
# Reports on a machine

Two texts about a machine: the register dump for a user, in seven lines, and the
one-line record notation for a developer, which leaves out memory, screen and
random generator and ends with the styles of assembly text.

The dump has the program counter, the number of return addresses and the index
register in four hexadecimal digits, the registers four a line with a space
after each, and last the timers and the cycle count, this in six columns.
-/

import Chip8.Machine.Basic
import Chip8.Text.Record

namespace Chip8

/-- The flags in record notation. -/
def Flags.describe (f : Flags) : String :=
  Text.record "Flags"
    [("debug", Text.truth f.tracing), ("pause", Text.truth f.paused),
      ("keypause", Text.optionalDecimal f.awaiting), ("lastkey", Text.optionalDecimal f.pressed)]

/-- The timers in record notation. -/
def Timers.describe (t : Timers) : String :=
  Text.record "Timers"
    [("delay", Text.decimal t.delay.toNat), ("sound", Text.decimal t.sound.toNat)]

/-- The keypad in record notation. -/
def Keypad.describe (k : Keypad) : String :=
  Text.record "Keys" [("keys", Text.bracketed (k.held.toList.map Text.truth))]

/-- A style of assembly text in record notation. -/
def describeStyle (colour : String) (bold : Bool) : String :=
  Text.record "Style"
    [("fg", "Some(Ansi(" ++ colour ++ "))"), ("bg", "None"), ("bold", Text.truth bold),
      ("style_flags", "StyleFlags(0)")]

/-- The styles of assembly text in record notation. -/
def assemblyStyles : String :=
  Text.record "Dis" [("invalid", describeStyle "Red" true), ("normal", describeStyle "Green" false)]

namespace Machine

/-- The entry of one register in the dump. -/
def dumpEntry (number : Nat) (value : UInt8) : String :=
  "v" ++ Text.hexUpper number ++ ": " ++ Text.hex 2 value.toNat ++ " "
    ++ if number % 4 = 3 then "\n" else ""

/-- The register dump. -/
def dump (m : Machine) : String :=
  "PC: " ++ Text.hex 4 m.pc.toNat ++ ", SP: " ++ Text.hex 4 m.returns.length
    ++ ", I: " ++ Text.hex 4 m.index.toNat ++ "\n"
    ++ String.join ((List.range 16).zipWith dumpEntry m.registers.toList)
    ++ "DLY: " ++ Text.decimal m.timers.delay.toNat
    ++ ", SND: " ++ Text.decimal m.timers.sound.toNat
    ++ ", CYC: " ++ Text.decimalRight 6 m.cycle.toNat ++ "\n"

/-- The machine in record notation. -/
def describe (m : Machine) : String :=
  Text.openRecord "CPU"
    [("flags", m.flags.describe),
      ("stack", Text.bracketed (m.stack.map fun a => Text.decimal a.toNat)),
      ("pc", Text.decimal m.pc.toNat), ("i", Text.decimal m.index.toNat),
      ("v", Text.bracketed (m.registers.toList.map fun b => Text.decimal b.toNat)),
      ("timers", m.timers.describe), ("keys", m.keypad.describe),
      ("cycle", Text.decimal m.cycle.toNat), ("disassembler", assemblyStyles)]

end Machine
end Chip8
