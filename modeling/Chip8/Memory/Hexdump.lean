/-
# Hexdump

A window of memory is shown sixteen bytes a line.  A line opens with the address
of its first byte, a colon and a space, both in the phosphor style; the bytes
follow in pairs, with two spaces in the middle of the line.  Lines end at
addresses of the form `16 k`, so the first and the last may be short, and only a
line that is shown to its end has a newline.

| last digit of the address | after its byte |
| --- | --- |
| `f` | newline |
| `7` | two spaces |
| other odd digit | space |
| even digit | nothing |
-/

import Chip8.Memory.Basic
import Chip8.Text.Style

namespace Chip8
namespace Memory

/-- What opens a line. -/
def lineHead (addr : Nat) : List Text.Span :=
  [.styled .phosphor (Text.hex 3 addr), .styled .phosphor ":", .ofText " "]

/-- What follows the byte at an address. -/
def gapAfter (addr : Nat) : String :=
  if addr % 16 = 15 then "\n"
  else if addr % 16 = 7 then "  "
  else if addr % 2 = 1 then " "
  else ""

/-- The dump of bytes that lie at `addr` and after; `opens` tells that a line
begins here whatever the address. -/
def dumpBytes (opens : Bool) (addr : Nat) : List UInt8 → List Text.Span
  | [] => []
  | b :: bs =>
    (if opens || addr % 16 == 0 then lineHead addr else [])
      ++ .ofText (Text.hex 2 b.toNat ++ gapAfter addr) :: dumpBytes false (addr + 1) bs

/-- The dump of the bytes from `start` up to `stop`, both cut to the memory. -/
def window (m : Memory) (start stop : Nat) : List Text.Span :=
  let stop := min stop size
  let start := min start stop
  dumpBytes true start (m.slice start stop)

/-- The dump of the whole memory. -/
def dump (m : Memory) : List Text.Span := m.window 0 size

end Memory
end Chip8
