/-
# Quoted text

A text is quoted by double quotes around it.  Inside, the quote and the
backslash get a backslash in front, five controls have a letter of their own,
and any other character that does not print as itself is written by its number
in hexadecimal.

| character | written |
| --- | --- |
| `"`, `\` | `\"`, `\\` |
| tab, newline, carriage return, null | `\t`, `\n`, `\r`, `\0` |
| unprintable | `\u`, number in braces |
-/

import Chip8.Text.Numeral
import Chip8.Text.Printable

namespace Chip8
namespace Text

/-- A character as it stands inside the quotes. -/
def escape (c : Char) : String :=
  if c = '"' then "\\\""
  else if c = '\\' then "\\\\"
  else if c = '\t' then "\\t"
  else if c = '\n' then "\\n"
  else if c = '\r' then "\\r"
  else if c = '\x00' then "\\0"
  else if isPrintable c then String.singleton c
  else "\\u\x7b" ++ hex 1 c.toNat ++ "\x7d"

/-- A text in quotes. -/
def quote (text : String) : String :=
  "\"" ++ String.join (text.toList.map escape) ++ "\""

end Text
end Chip8
