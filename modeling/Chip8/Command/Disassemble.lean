/-
# The command that lists a program

Prints the listing of a program.  The load address, a word in hexadecimal, only
sets the addresses shown; the offset, a number of bytes, sets where the listing
begins.  The command is stopped if the two together have no room in 64 bits.
-/

import Chip8.Command.Run
import Chip8.Listing

namespace Chip8
namespace Command
namespace Disassemble

/-- The options of the command. -/
inductive Setting where
  | loadAddress
  | offset
  deriving DecidableEq, Repr

/-- The settings of the command. -/
structure Settings where
  loadAddress : Nat
  offset : Nat
  deriving DecidableEq, Repr

/-- The settings without any option. -/
def initial : Settings := ⟨0x200, 0⟩

/-- The options and their help texts. -/
def options : List (OptionSpec Setting) :=
  [⟨none, 'h', "help", none, "Show help text"⟩,
    ⟨some .loadAddress, 'l', "loadaddr", some "LOADADDR",
      "Load address (usually 200) (default: 200)"⟩,
    ⟨some .offset, 'o', "offset", some "OFFSET", "Start disassembling at offset..."⟩]

/-- Reads a word in hexadecimal. -/
def readWord (text : String) : Except String Nat :=
  (Text.Numeral.read 16 UInt16.size text).mapError Text.Numeral.Refusal.message

/-- Sets an option to a value. -/
def assign (s : Settings) (setting : Setting) (text : String) : Except String Settings :=
  match setting with
  | .loadAddress => (readWord text).map fun n => { s with loadAddress := n }
  | .offset => (Run.readNumber text).map fun n => { s with offset := n }

/-- Lists a program. -/
def perform (s : Settings) : Except FileError (List UInt8) → Except Overflow Finished
  | .error e => .ok (notLoaded (.unreadable e))
  | .ok program => do return ⟨0, ← Listing.disassemble program s.loadAddress s.offset, ""⟩

end Disassemble

/-- The command that lists a program. -/
def listProgram : Command Disassemble.Setting Disassemble.Settings where
  options := Disassemble.options
  fileHelp := "Load a ROM to disassemble"
  initial := Disassemble.initial
  switch := fun s _ => s
  assign := Disassemble.assign
  perform := Disassemble.perform

end Command
end Chip8
