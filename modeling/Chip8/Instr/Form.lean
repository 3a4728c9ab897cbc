/-
# The form of an instruction

An instruction in record notation: the name of its form and its operands as
decimal fields.  `A` is an address, `B` a byte, `x` and `y` are registers and
`n` is the size of a sprite.  Unlike the mnemonic, which several forms share,
the name of the form alone tells the instruction's shape.  The operators between
registers are named by their mnemonics.
-/

import Chip8.Instr.Assembly
import Chip8.Text.Record

namespace Chip8

/-- The form of a conditional skip. -/
def Test.form : Test → String
  | .byteEq _ _ => "seb"
  | .byteNe _ _ => "sneb"
  | .regEq _ _ => "se"
  | .regNe _ _ => "sne"
  | .keyDown _ => "sek"
  | .keyUp _ => "snek"

/-- The operands of a conditional skip, by name. -/
def Test.fields : Test → List (String × Nat)
  | .byteEq x b | .byteNe x b => [("B", b.toNat), ("x", x.val)]
  | .regEq x y | .regNe x y => [("y", y.val), ("x", x.val)]
  | .keyDown x | .keyUp x => [("x", x.val)]

namespace Instr

/-- The name of the instruction's form. -/
def form : Instr → String
  | .clear => "cls"
  | .ret => "ret"
  | .jump _ => "jmp"
  | .call _ => "call"
  | .skip t => t.form
  | .loadByte _ _ => "movb"
  | .addByte _ _ => "addb"
  | .alu op _ _ => op.mnemonic
  | .loadIndex _ => "movI"
  | .jumpOffset _ => "jmpr"
  | .random _ _ => "rand"
  | .draw _ _ _ => "draw"
  | .readDelay _ => "getdt"
  | .awaitKey _ => "waitk"
  | .setDelay _ => "setdt"
  | .setSound _ => "movst"
  | .addIndex _ => "addI"
  | .glyph _ => "font"
  | .decimal _ => "bcd"
  | .save _ => "dmao"
  | .restore _ => "dmai"

/-- The operands of an instruction, by name. -/
def fields : Instr → List (String × Nat)
  | .clear | .ret => []
  | .jump a | .call a | .loadIndex a | .jumpOffset a => [("A", a.val)]
  | .skip t => t.fields
  | .loadByte x b | .addByte x b | .random x b => [("B", b.toNat), ("x", x.val)]
  | .alu _ x y => [("y", y.val), ("x", x.val)]
  | .draw x y n => [("y", y.val), ("x", x.val), ("n", n.val)]
  | .readDelay x | .awaitKey x | .setDelay x | .setSound x | .addIndex x | .glyph x
  | .decimal x | .save x | .restore x => [("x", x.val)]

/-- The instruction in record notation. -/
def describe (i : Instr) : String :=
  Text.record i.form (i.fields.map fun f => (f.1, Text.decimal f.2))

end Instr
end Chip8
