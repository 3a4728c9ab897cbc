/-
# The log

Whatever a host call has to tell is a record of the log: an event with its
numbers, which becomes text only when it is shown.

| record | level | message |
| --- | --- | --- |
| `loaded` | `INFO` | the size of a program and where it lies |
| `reset` | `INFO` | |
| `halted` | `INFO` | the address of a jump to itself |
| `keyMoved` | `TRACE` | a key and where it went |
| `timers` | `TRACE` | both timers |
| `fault` | `WARN` | the message of a fault |
| `executing` | `DEBUG` | cycle, address and assembly text of an instruction |

The text of `executing` has the cycle in three columns, the address, and the
coloured assembly text filled up to 36 characters, control sequences counted.
-/

import Chip8.Fault
import Chip8.Instr.Assembly

namespace Chip8

/-- A record of the log. -/
inductive Record where
  /-- A program of `size` bytes was loaded at `start`. -/
  | loaded (size start : Nat)
  /-- The machine was reset. -/
  | reset
  /-- The program jumped from an address to itself. -/
  | halted (addr : UInt16)
  /-- A key was pressed or released. -/
  | keyMoved (key : Nat) (pressed : Bool)
  /-- The timers after a tick. -/
  | timers (delay sound : UInt8)
  /-- A cycle failed. -/
  | fault (f : Fault)
  /-- A cycle is about to execute the word at `pc`. -/
  | executing (cycle : UInt64) (pc word : UInt16)
  deriving DecidableEq, Repr

/-- How urgent a record is. -/
inductive Level where
  | trace
  | debug
  | info
  | warn
  deriving DecidableEq, Repr

/-- The name of a level. -/
def Level.name : Level → String
  | .trace => "TRACE"
  | .debug => "DEBUG"
  | .info => "INFO"
  | .warn => "WARN"

namespace Record

/-- The level of a record. -/
def level : Record → Level
  | .loaded _ _ | .reset | .halted _ => .info
  | .keyMoved _ _ | .timers _ _ => .trace
  | .fault _ => .warn
  | .executing _ _ _ => .debug

/-- The number of characters of a traced instruction. -/
def assemblyWidth : Nat := 36

/-- The message of a record. -/
def message : Record → String
  | .loaded size start =>
    "Loaded " ++ Text.decimal size ++ " byte program at " ++ Text.hex 3 start
  | .reset => "Reset"
  | .halted addr => "Program halted at " ++ Text.hex 3 addr.toNat
  | .keyMoved key pressed => "key " ++ Text.hexUpper key ++ if pressed then " down" else " up"
  | .timers delay sound =>
    "DLY: " ++ Text.decimal delay.toNat ++ ", SND: " ++ Text.decimal sound.toNat
  | .fault f => f.message
  | .executing cycle pc word =>
    (Text.Span.styled .faint (Text.decimalRight 3 cycle.toNat)).render ++ " "
      ++ Text.hex 3 pc.toNat ++ ": " ++ Text.padRight assemblyWidth (Word.disassemble word)

/-- A record as a line of the log. -/
def line (r : Record) : String := r.level.name ++ " " ++ r.message

end Record
end Chip8
