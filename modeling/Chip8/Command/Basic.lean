/-
# Commands

A command takes options and one file, and prints.  It is described by its
options, by what each of them does to its settings, and by what it does with the
contents of the file.  Performing a command is a function of its arguments and of
the file that they name:

| arguments | standard error | exit code |
| --- | --- | ---: |
| refused | name of the program and the refusal | 2 |
| asking for help | the usage | 0 |
| otherwise, if a number has no room | the report of the runtime | 101 |
| otherwise | what the command says | as the command says |

Nothing is read unless the arguments are good and do not ask for help, and nothing is
printed on standard output by a command that was stopped.
-/

import Chip8.Command.Options
import Chip8.Fault
import Chip8.Overflow
import Chip8.Text.Numeral

namespace Chip8

/-- What a command has printed when it is done, and its exit code. -/
structure Finished where
  exit : Nat
  output : String
  errors : String
  deriving DecidableEq, Repr

/-- What the runtime of a command knows when it has to stop the command. -/
structure Runtime where
  /-- The number of the thread that is stopped. -/
  thread : Nat
  /-- Where in the program the operation stands. -/
  place : String
  /-- What else can be done to find the reason. -/
  advice : String

/-- A command that the runtime has stopped. -/
def Runtime.stopped (r : Runtime) (o : Overflow) : Finished :=
  ⟨101, "", "\nthread 'main' (" ++ Text.decimal r.thread ++ ") panicked at " ++ r.place ++ ":\n"
    ++ o.message ++ "\n" ++ r.advice ++ "\n"⟩

/-- A command that is done or was stopped. -/
def Runtime.finished (r : Runtime) : Except Overflow Finished → Finished
  | .ok finished => finished
  | .error o => r.stopped o

/-- A command with options `ι` and settings `σ`. -/
structure Command (ι σ : Type) where
  options : List (Command.OptionSpec ι)
  /-- The help text on the file. -/
  fileHelp : String
  /-- The settings without any option. -/
  initial : σ
  /-- Turns a switch on. -/
  switch : σ → ι → σ
  /-- Sets an option to a value, unless the value cannot be read. -/
  assign : σ → ι → String → Except String σ
  /-- What the command does with the contents of the file, unless it is stopped. -/
  perform : σ → Except FileError (List UInt8) → Except Overflow Finished

namespace Command

/-- The arguments that have been read. -/
structure Arguments (σ : Type) where
  settings : σ
  help : Bool
  file : Option String

variable {ι σ : Type}

/-- Reads an item of the command line. -/
def readItem (c : Command ι σ) (a : Arguments σ) : Item ι → Except Refusal (Arguments σ)
  | .switch spec =>
    match spec.setting with
    | none => .ok { a with help := true }
    | some setting => .ok { a with settings := c.switch a.settings setting }
  | .value spec written text =>
    match spec.setting with
    | none => .ok a
    | some setting =>
      match c.assign a.settings setting text with
      | .error why => .error (.badValue written why)
      | .ok settings => .ok { a with settings := settings }
  | .free text =>
    match a.file with
    | none => .ok { a with file := some text }
    | some _ => .error (.extraArgument text)
  | .refused why => .error why

/-- Reads items one after the other, up to the first refusal. -/
def readItems (c : Command ι σ) (a : Arguments σ) : List (Item ι) → Except Refusal (Arguments σ)
  | [] => .ok a
  | item :: rest =>
    match c.readItem a item with
    | .error why => .error why
    | .ok a => c.readItems a rest

/-- What the arguments of a command ask for. -/
inductive Request (σ : Type) where
  /-- The usage. -/
  | usage
  /-- To perform the command on a file. -/
  | file (settings : σ) (path : String)

/-- Reads the arguments of a command. -/
def readArguments (c : Command ι σ) (arguments : List String) : Except Refusal (Request σ) :=
  match c.readItems ⟨c.initial, false, none⟩ (items c.options arguments) with
  | .error why => .error why
  | .ok a =>
    if a.help then .ok .usage
    else
      match a.file with
      | none => .error .missingArgument
      | some path => .ok (.file a.settings path)

/-- How an option is written in the usage. -/
def OptionSpec.synopsis (s : OptionSpec ι) : String :=
  "-" ++ String.singleton s.short ++ ", --" ++ s.long
    ++ match s.placeholder with
      | none => ""
      | some p => " " ++ p

/-- The usage of a command: a line for the file and a line for each option, with
the help texts below one another. -/
def usage (c : Command ι σ) (program : String) : String :=
  let width := (c.options.map fun s => s.synopsis.length).foldl max 0 + 2
  let entry (name help : String) : String := "  " ++ Text.padRight width name ++ help ++ "\n"
  "Usage: " ++ program ++ " [OPTIONS]\n\nPositional arguments:\n"
    ++ entry "file" c.fileHelp ++ "\nOptional arguments:\n"
    ++ String.join (c.options.map fun s => entry s.synopsis s.help)

/-- What a command prints if its arguments do not name a file to read. -/
def settle (c : Command ι σ) (program : String) :
    Except Refusal (Request σ) → Except Finished (σ × String)
  | .error why => .error ⟨2, "", program ++ ": " ++ why.message ++ "\n"⟩
  | .ok .usage => .error ⟨0, "", c.usage program⟩
  | .ok (.file settings path) => .ok (settings, path)

/-- Performs a command, given its runtime, its name, the files there are and its arguments. -/
def run (c : Command ι σ) (runtime : Runtime) (program : String)
    (files : String → Except FileError (List UInt8)) (arguments : List String) : Finished :=
  match c.settle program (c.readArguments arguments) with
  | .error finished => finished
  | .ok (settings, path) => runtime.finished (c.perform settings (files path))

end Command
end Chip8
