/-
# Options on a command line

The arguments of a command are cut into items from left to right.

| argument | items |
| --- | --- |
| `--name` | a switch, or an option whose value is the next argument |
| `--name=value` | an option and its value |
| `-abc` | short options; the first that takes a value takes the rest, or the next argument |
| `--` | none, and all later arguments are free |
| `-`, anything else | a free argument |

A value is taken as it stands, whatever it looks like.  What cannot be cut is an
item too, a refusal, so that reading the items in order meets the leftmost
refusal first.
-/

import Chip8.Text.Numeral.Reader

namespace Chip8
namespace Command

/-- An option that a command knows.  It stands for a setting `ι` of the command,
or for the request for help. -/
structure OptionSpec (ι : Type) where
  setting : Option ι
  short : Char
  long : String
  /-- What stands for the value in the help text; a switch has none. -/
  placeholder : Option String
  help : String

/-- Why a command line is refused. -/
inductive Refusal where
  /-- There is no such option. -/
  | unknownOption (written : String)
  /-- There is no argument left for the value of an option. -/
  | missingValue (written : String)
  /-- A value is given to a switch. -/
  | unexpectedValue (written : String)
  /-- The value of an option cannot be read. -/
  | badValue (written why : String)
  /-- There is a second free argument. -/
  | extraArgument (text : String)
  /-- There is no free argument. -/
  | missingArgument
  deriving DecidableEq, Repr

/-- The sentence that explains a refusal. -/
def Refusal.message : Refusal → String
  | .unknownOption written => "unrecognized option `" ++ written ++ "`"
  | .missingValue written => "missing argument to option `" ++ written ++ "`"
  | .unexpectedValue written => "option `" ++ written ++ "` does not accept an argument"
  | .badValue written why => "invalid argument to option `" ++ written ++ "`: " ++ why
  | .extraArgument text => "unexpected free argument `" ++ text ++ "`"
  | .missingArgument => "missing required free argument"

/-- A piece of a command line. -/
inductive Item (ι : Type) where
  /-- A switch. -/
  | switch (spec : OptionSpec ι)
  /-- An option, as it was written, and its value. -/
  | value (spec : OptionSpec ι) (written text : String)
  /-- A free argument. -/
  | free (text : String)
  /-- Something that cannot be cut. -/
  | refused (why : Refusal)

/-- The items of an argument, and the option, as it was written, whose value
the next argument is. -/
structure Cut (ι : Type) where
  items : List (Item ι)
  pending : Option (OptionSpec ι × String)

variable {ι : Type}

/-- Cuts an argument of short options, given without the dash. -/
def cutShort (specs : List (OptionSpec ι)) : List Char → Cut ι
  | [] => ⟨[], none⟩
  | c :: cs =>
    let written := "-" ++ String.singleton c
    match specs.find? fun s => s.short == c with
    | none => ⟨[.refused (.unknownOption written)], none⟩
    | some spec =>
      if spec.placeholder.isNone then
        let rest := cutShort specs cs
        { rest with items := .switch spec :: rest.items }
      else if cs.isEmpty then ⟨[], some (spec, written)⟩
      else ⟨[.value spec written (String.ofList cs)], none⟩

/-- Cuts a long option, given without the dashes. -/
def cutLong (specs : List (OptionSpec ι)) (cs : List Char) : Cut ι :=
  let name := String.ofList (cs.takeWhile (· != '='))
  let written := "--" ++ name
  match specs.find? fun s => s.long == name with
  | none => ⟨[.refused (.unknownOption written)], none⟩
  | some spec =>
    match cs.dropWhile (· != '=') with
    | [] =>
      if spec.placeholder.isNone then ⟨[.switch spec], none⟩ else ⟨[], some (spec, written)⟩
    | _ :: value =>
      if spec.placeholder.isNone then ⟨[.refused (.unexpectedValue written)], none⟩
      else ⟨[.value spec written (String.ofList value)], none⟩

/-- Cuts an argument. -/
def cutArgument (specs : List (OptionSpec ι)) (argument : String) : Cut ι :=
  match argument.toList with
  | '-' :: '-' :: cs => cutLong specs cs
  | '-' :: c :: cs => cutShort specs (c :: cs)
  | _ => ⟨[.free argument], none⟩

/-- The items of the arguments.  `pending` is the option that waits for its
value; `ended` tells that a `--` has ended the options. -/
def itemsFrom (specs : List (OptionSpec ι)) (pending : Option (OptionSpec ι × String))
    (ended : Bool) : List String → List (Item ι)
  | [] =>
    match pending with
    | none => []
    | some (_, written) => [.refused (.missingValue written)]
  | argument :: rest =>
    match pending with
    | some (spec, written) => .value spec written argument :: itemsFrom specs none ended rest
    | none =>
      if ended then .free argument :: itemsFrom specs none true rest
      else if argument = "--" then itemsFrom specs none true rest
      else
        let cut := cutArgument specs argument
        cut.items ++ itemsFrom specs cut.pending false rest

/-- The items of a command line. -/
def items (specs : List (OptionSpec ι)) (arguments : List String) : List (Item ι) :=
  itemsFrom specs none false arguments

end Command
end Chip8
