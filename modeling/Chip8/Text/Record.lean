/-
# Record notation

The one-line notation of a value for a developer's eyes: a record is its name
and, in braces, its fields in order; an open record ends in `..` because not
all of its fields are shown.

| value | written |
| --- | --- |
| record without fields | `name` |
| record | name, `{ field: value, … }` |
| open record | name, `{ field: value, …, .. }` |
| list | `[value, …]` |
| optional value | `None`, `Some(value)` |
-/

import Chip8.Text.Numeral

namespace Chip8
namespace Text

/-- The fields of a record, each a name and a written value. -/
def fields (entries : List (String × String)) : String :=
  ", ".intercalate (entries.map fun e => e.1 ++ ": " ++ e.2)

/-- A record with all its fields. -/
def record (name : String) (entries : List (String × String)) : String :=
  if entries.isEmpty then name else name ++ " \x7b " ++ fields entries ++ " \x7d"

/-- A record that shows some of its fields. -/
def openRecord (name : String) (entries : List (String × String)) : String :=
  name ++ " \x7b " ++ fields entries ++ ", .. \x7d"

/-- A list of written values. -/
def bracketed (values : List String) : String :=
  "[" ++ ", ".intercalate values ++ "]"

/-- A truth value. -/
def truth (b : Bool) : String :=
  if b then "true" else "false"

/-- An optional number. -/
def optionalDecimal : Option Nat → String
  | none => "None"
  | some n => "Some(" ++ decimal n ++ ")"

end Text
end Chip8
