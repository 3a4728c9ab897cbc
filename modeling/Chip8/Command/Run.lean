/-
# The command that runs a program

Runs a program for a number of frames with scripted key presses, then prints the
screen and the registers.  If the run fails, the fault is printed instead of the
screen.  If the program cannot be loaded, nothing is run.

| end | standard output | standard error | exit code |
| --- | --- | --- | ---: |
| all frames, or a halt | screen, registers | | 0 |
| a fault | registers | the fault | 1 |
| not loaded | | the fault in record notation | 1 |
-/

import Chip8.Command.Basic
import Chip8.Machine.Report
import Chip8.Play
import Chip8.Screen.Picture

namespace Chip8
namespace Command

/-- A command's end because its program could not be loaded. -/
def notLoaded (f : Fault) : Finished := ⟨1, "", "Error: " ++ f.describe ++ "\n"⟩

namespace Run

/-- The options of the command. -/
inductive Setting where
  | debug
  | seed
  | frames
  | ipf
  | key
  deriving DecidableEq, Repr

/-- The settings of the command. -/
structure Settings where
  tracing : Bool
  seed : Option Nat
  frames : Nat
  cyclesPerFrame : Nat
  script : List KeyPress
  deriving DecidableEq, Repr

/-- The settings without any option. -/
def initial : Settings := ⟨false, none, 600, 15, []⟩

/-- The options and their help texts. -/
def options : List (OptionSpec Setting) :=
  [⟨none, 'h', "help", none, "Print this help message."⟩,
    ⟨some .debug, 'd', "debug", none, "Enable debug mode at startup."⟩,
    ⟨some .seed, 's', "seed", some "SEED", "Seed the random number generator."⟩,
    ⟨some .frames, 'f', "frames", some "N", "Run for this many frames. (default: 600)"⟩,
    ⟨some .ipf, 'i', "ipf", some "IPF", "Set the instructions-per-frame rate. (default: 15)"⟩,
    ⟨some .key, 'k', "key", some "K@FRAME",
      "Press hex key K for one frame, starting at FRAME."⟩]

/-- A number as the value of an option. -/
def readNumber (text : String) : Except String Nat :=
  (Text.Numeral.readDecimal text).mapError Text.Numeral.Refusal.message

/-- Turns a switch on. -/
def switch (s : Settings) : Setting → Settings
  | .debug => { s with tracing := true }
  | .seed | .frames | .ipf | .key => s

/-- Sets an option to a value; the presses of the script are collected. -/
def assign (s : Settings) (setting : Setting) (text : String) : Except String Settings :=
  match setting with
  | .debug => .ok s
  | .seed => (readNumber text).map fun n => { s with seed := some n }
  | .frames => (readNumber text).map fun n => { s with frames := n }
  | .ipf => (readNumber text).map fun n => { s with cyclesPerFrame := n }
  | .key =>
    ((KeyPress.read text).mapError KeyPress.Refusal.message).map fun p =>
      { s with script := s.script ++ [p] }

/-- The machine before the program is loaded; `entropy` is the seed if none is
given. -/
def machine (entropy : UInt64) (s : Settings) : Machine :=
  let m := Machine.ofSeed ((s.seed.map UInt64.ofNat).getD entropy)
  { m with flags := { m.flags with tracing := s.tracing } }

/-- What is printed at the end of a run. -/
def report (e : Ending) : Finished :=
  match e.result with
  | .ok () => ⟨0, e.machine.screen.braille ++ "\n" ++ e.machine.dump, ""⟩
  | .error f => ⟨1, e.machine.dump, (Text.Span.styled .alarm f.message).render ++ "\n"⟩

/-- Loads a program, runs it and reports. -/
def perform (entropy : UInt64) (s : Settings) (contents : Except FileError (List UInt8)) :
    Finished :=
  let o := (machine entropy s).loadFile contents
  match o.result with
  | .error f => notLoaded f
  | .ok () => report (o.machine.play s.script s.frames s.cyclesPerFrame)

end Run

/-- The command that runs a program. -/
def runProgram (entropy : UInt64) : Command Run.Setting Run.Settings where
  options := Run.options
  fileHelp := "Load a ROM to run on Chirp8."
  initial := Run.initial
  switch := Run.switch
  assign := Run.assign
  perform := fun s contents => .ok (Run.perform entropy s contents)

end Command
end Chip8
