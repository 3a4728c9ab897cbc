/-
# Faults

What can go wrong, with the numbers that a message needs.  A fault of a cycle
is fatal: the machine stays where it is and the same cycle fails again.  A call
refused for its argument, or a program that cannot be read, leaves the machine
able to go on.

| fault | arises in | fatal |
| --- | --- | --- |
| `programTooLarge` | loading | no |
| `pcOutOfBounds`, `illegalInstruction` | fetching, decoding | yes |
| `stackOverflow`, `stackUnderflow` | calling, returning | yes |
| `invalidKey` | pressing or releasing a key | no |
| `unreadable` | reading a program | no |

Addresses have at least three hexadecimal digits in a message, words and the
program counter at least four.
-/

import Chip8.Text.Record

namespace Chip8

/-- Why a file cannot be read. -/
inductive FileError where
  | notFound
  | permissionDenied
  | isDirectory
  deriving DecidableEq, Repr

namespace FileError

/-- The system's number of the error. -/
def number : FileError → Nat
  | .notFound => 2
  | .permissionDenied => 13
  | .isDirectory => 21

/-- The system's words for the error. -/
def text : FileError → String
  | .notFound => "No such file or directory"
  | .permissionDenied => "Permission denied"
  | .isDirectory => "Is a directory"

/-- The kind of the error, in one word. -/
def kind : FileError → String
  | .notFound => "NotFound"
  | .permissionDenied => "PermissionDenied"
  | .isDirectory => "IsADirectory"

/-- The error as a message. -/
def message (e : FileError) : String :=
  e.text ++ " (os error " ++ Text.decimal e.number ++ ")"

/-- The error in record notation. -/
def describe (e : FileError) : String :=
  Text.record "Os"
    [("code", Text.decimal e.number), ("kind", e.kind), ("message", "\"" ++ e.text ++ "\"")]

end FileError

/-- What can go wrong. -/
inductive Fault where
  /-- A program of `size` bytes is larger than the memory for it. -/
  | programTooLarge (size capacity : Nat)
  /-- There is no whole word of memory at the program counter. -/
  | pcOutOfBounds (pc : UInt16)
  /-- The word at an address is no instruction. -/
  | illegalInstruction (addr word : UInt16)
  /-- A call at an address, with a full stack. -/
  | stackOverflow (addr : UInt16)
  /-- A return at an address, with an empty stack. -/
  | stackUnderflow (addr : UInt16)
  /-- The keypad has no such key. -/
  | invalidKey (key : Nat)
  /-- A program cannot be read. -/
  | unreadable (cause : FileError)
  deriving DecidableEq, Repr

namespace Fault

/-- The fault as a message. -/
def message : Fault → String
  | .programTooLarge size capacity =>
    "program of " ++ Text.decimal size ++ " bytes does not fit in " ++ Text.decimal capacity
      ++ " bytes of program memory"
  | .pcOutOfBounds pc => "pc " ++ Text.hex 4 pc.toNat ++ " is outside of memory"
  | .illegalInstruction addr word =>
    "opcode " ++ Text.hex 4 word.toNat ++ " at " ++ Text.hex 3 addr.toNat ++ " not recognized"
  | .stackOverflow addr =>
    "stack overflow: call at " ++ Text.hex 3 addr.toNat ++ " exceeds 16 levels"
  | .stackUnderflow addr =>
    "stack underflow: return at " ++ Text.hex 3 addr.toNat ++ " with an empty stack"
  | .invalidKey key => "tried to press key " ++ Text.hexUpper key ++ " which does not exist"
  | .unreadable cause => cause.message

/-- The fault ends the run. -/
def isFatal : Fault → Bool
  | .pcOutOfBounds _ | .illegalInstruction _ _ | .stackOverflow _ | .stackUnderflow _ => true
  | .programTooLarge _ _ | .invalidKey _ | .unreadable _ => false

/-- The name of the fault in record notation. -/
def name : Fault → String
  | .programTooLarge _ _ => "ProgramTooLarge"
  | .pcOutOfBounds _ => "PcOutOfBounds"
  | .illegalInstruction _ _ => "IllegalInstruction"
  | .stackOverflow _ => "StackOverflow"
  | .stackUnderflow _ => "StackUnderflow"
  | .invalidKey _ => "InvalidKeyIndex"
  | .unreadable _ => "IoError"

/-- The fields of the fault in record notation, numbers in decimal. -/
def fields : Fault → List (String × Nat)
  | .programTooLarge size capacity => [("len", size), ("max", capacity)]
  | .pcOutOfBounds pc => [("pc", pc.toNat)]
  | .illegalInstruction addr word => [("addr", addr.toNat), ("word", word.toNat)]
  | .stackOverflow addr | .stackUnderflow addr => [("addr", addr.toNat)]
  | .invalidKey key => [("key", key)]
  | .unreadable _ => []

/-- The fault in record notation. -/
def describe (f : Fault) : String :=
  match f with
  | .unreadable cause => f.name ++ "(" ++ cause.describe ++ ")"
  | _ => Text.record f.name (f.fields.map fun e => (e.1, Text.decimal e.2))

end Fault
end Chip8
