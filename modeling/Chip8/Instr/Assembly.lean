/-
# Assembly text

An instruction is written as its mnemonic, filled up to seven columns, and its
operands with commas between them.  The operand that is changed comes last; a
sprite is written size first, then column and row.

| operand | written |
| --- | --- |
| register | `v` and its number, upper case |
| byte, size of a sprite | `#` and two digits, `#` and one digit |
| address to jump to | three digits |
| address as a value | `$` and three digits |
| index register, memory at it | `I`, `&I` |
| timers | `DT`, `ST` |

A word that is no instruction is written as `inval` and its four digits.
-/

import Chip8.Instr.Encoding
import Chip8.Text.Numeral
import Chip8.Text.Style

namespace Chip8

/-- A register as an operand. -/
def Reg.assembly (x : Reg) : String := "v" ++ Text.hexUpper x.val

/-- A byte as an operand. -/
def byteOperand (b : UInt8) : String := "#" ++ Text.hex 2 b.toNat

/-- An address as a value. -/
def addressOperand (a : Address) : String := "$" ++ Text.hex 3 a.val

/-- The mnemonic of an operator. -/
def AluOp.mnemonic : AluOp → String
  | .copy => "mov"
  | .or => "or"
  | .and => "and"
  | .xor => "xor"
  | .add => "add"
  | .sub => "sub"
  | .shr => "shr"
  | .rsub => "bsub"
  | .shl => "shl"

/-- The mnemonic of a conditional skip. -/
def Test.mnemonic : Test → String
  | .byteEq _ _ | .regEq _ _ => "se"
  | .byteNe _ _ | .regNe _ _ => "sne"
  | .keyDown _ => "sek"
  | .keyUp _ => "snek"

/-- The operands of a conditional skip. -/
def Test.operands : Test → List String
  | .byteEq x b | .byteNe x b => [byteOperand b, x.assembly]
  | .regEq x y | .regNe x y => [y.assembly, x.assembly]
  | .keyDown x | .keyUp x => [x.assembly]

namespace Instr

/-- The mnemonic of an instruction. -/
def mnemonic : Instr → String
  | .clear => "cls"
  | .ret => "ret"
  | .jump _ | .jumpOffset _ => "jmp"
  | .call _ => "call"
  | .skip t => t.mnemonic
  | .loadByte _ _ | .loadIndex _ | .readDelay _ | .setDelay _ | .setSound _ => "mov"
  | .addByte _ _ | .addIndex _ => "add"
  | .alu op _ _ => op.mnemonic
  | .random _ _ => "rand"
  | .draw _ _ _ => "draw"
  | .awaitKey _ => "waitk"
  | .glyph _ => "font"
  | .decimal _ => "bcd"
  | .save _ => "dmao"
  | .restore _ => "dmai"

/-- The operands of an instruction. -/
def operands : Instr → List String
  | .clear | .ret => []
  | .jump a | .call a => [Text.hex 3 a.val]
  | .skip t => t.operands
  | .loadByte x b | .addByte x b | .random x b => [byteOperand b, x.assembly]
  | .alu _ x y => [y.assembly, x.assembly]
  | .loadIndex a => [addressOperand a, "I"]
  | .jumpOffset a => [addressOperand a ++ "+v0"]
  | .draw x y n => ["#" ++ Text.hex 1 n.val, x.assembly, y.assembly]
  | .readDelay x => ["DT", x.assembly]
  | .setDelay x => [x.assembly, "DT"]
  | .setSound x => [x.assembly, "ST"]
  | .addIndex x | .glyph x => [x.assembly, "I"]
  | .decimal x => [x.assembly, "&I"]
  | .awaitKey x | .save x | .restore x => [x.assembly]

/-- The columns of a mnemonic. -/
def mnemonicWidth : Nat := 7

/-- The instruction as assembly text. -/
def assembly (i : Instr) : String :=
  Text.padRight mnemonicWidth i.mnemonic ++ ", ".intercalate i.operands

end Instr

namespace Word

/-- A word as assembly text, green if it is an instruction and red if not. -/
def assemblySpan (w : UInt16) : Text.Span :=
  match Instr.decode w with
  | some i => .styled .good i.assembly
  | none => .styled .bad (Text.padRight Instr.mnemonicWidth "inval" ++ Text.hex 4 w.toNat)

/-- A word as coloured assembly text. -/
def disassemble (w : UInt16) : String := (assemblySpan w).render

end Word

end Chip8
