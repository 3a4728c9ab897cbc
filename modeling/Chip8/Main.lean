/-
# The command line

`run` runs a program and `disasm` lists one.  Reading the file, drawing a seed
and printing are all that happens here.
-/

import Chip8.Command.Disassemble

namespace Chip8
namespace CommandLine

/-- Reads the bytes of a file. -/
def readFile (path : String) : IO (Except FileError (List UInt8)) := do
  try
    return .ok (← IO.FS.readBinFile path).toList
  catch e =>
    match e with
    | .inappropriateType .. => return .error .isDirectory
    | .permissionDenied .. => return .error .permissionDenied
    | _ => return .error .notFound

/-- A seed that nobody can foresee. -/
def drawSeed : IO UInt64 := do
  let bytes ← IO.getRandomBytes 8
  return bytes.toList.foldl (fun seed b => seed * 256 + b.toUInt64) 0

/-- Prints what a command has printed and yields its exit code. -/
def finish (f : Finished) : IO UInt32 := do
  IO.print f.output
  IO.eprint f.errors
  return UInt32.ofNat f.exit

/-- Performs a command on a file of the system.  It has one thread, and a report names the
program only. -/
def perform {ι σ : Type} (c : Command ι σ) (program : String) (arguments : List String) :
    IO UInt32 := do
  match c.settle program (c.readArguments arguments) with
  | .error finished => finish finished
  | .ok (settings, path) =>
    let runtime : Runtime := ⟨1, program, "note: the command has printed nothing"⟩
    finish (runtime.finished (c.perform settings (← readFile path)))

/-- Performs the command that the first argument names. -/
def start : List String → IO UInt32
  | "run" :: arguments => do perform (Command.runProgram (← drawSeed)) "chip8 run" arguments
  | "disasm" :: arguments => perform Command.listProgram "chip8 disasm" arguments
  | _ => finish ⟨2, "", "Usage: chip8 run|disasm [OPTIONS]\n"⟩

end CommandLine
end Chip8

/-- The entry point. -/
def main (arguments : List String) : IO UInt32 := Chip8.CommandLine.start arguments
