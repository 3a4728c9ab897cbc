/-
# The formats of the instructions

A layout is what a word and its text look like: a template of four digits, a mnemonic
and a template of operands.  A format is the layout of one form of instruction, with
the instruction that operands make.  There are 34 formats, and one more layout for the
words that are no instructions.

The decoder implements the word templates digit by digit (`decode_eq_some_iff_format`).
-/

import Chip8.Instr.Form
import Chip8.Proofs.Template
import Chip8.Text.Numeral.Reader

namespace Chip8

/-- What words of one kind and their texts look like. -/
structure Layout where
  /-- The template of the word: hexadecimal digits and letters of operands. -/
  word : String
  mnemonic : String
  /-- The template of the operands. -/
  operands : String
  deriving DecidableEq, Repr

/-- The layout of a form of instruction. -/
structure Format extends Layout where
  /-- The name of the form. -/
  form : String
  /-- The instruction of this form with the given operands, as far as they fit. -/
  make : (Letter → Nat) → Instr

/-- The last digit of a number, which may name a register. -/
def oneDigit (n : Nat) : Nibble := .ofNat 16 n

/-- The last three digits of a number. -/
def threeDigits (n : Nat) : Address := .ofNat 4096 n

/-- The last digit of a number is its remainder. -/
@[simp] theorem val_oneDigit (n : Nat) : (oneDigit n).val = n % 16 := rfl

/-- The last three digits of a number are its remainder. -/
@[simp] theorem val_threeDigits (n : Nat) : (threeDigits n).val = n % 4096 := rfl

/-- A single digit is its own last digit. -/
@[simp] theorem oneDigit_val (d : Nibble) : oneDigit d.val = d := Fin.ofNat_val_eq_self d

/-- An address is its own last three digits. -/
@[simp] theorem threeDigits_val (a : Address) : threeDigits a.val = a := Fin.ofNat_val_eq_self a

namespace Format

/-- An instruction with an address. -/
@[simp] def ofAddress (make : Address → Instr) (v : Letter → Nat) : Instr := make (threeDigits (v .A))

/-- An instruction with a register. -/
@[simp] def ofRegister (make : Reg → Instr) (v : Letter → Nat) : Instr := make (oneDigit (v .x))

/-- An instruction with two registers. -/
@[simp] def ofRegisters (make : Reg → Reg → Instr) (v : Letter → Nat) : Instr :=
  make (oneDigit (v .x)) (oneDigit (v .y))

/-- An instruction with a register and a byte. -/
@[simp] def ofByte (make : Reg → UInt8 → Instr) (v : Letter → Nat) : Instr :=
  make (oneDigit (v .x)) (.ofNat (v .B))

/-- An instruction with two registers and a size. -/
@[simp] def ofSize (make : Reg → Reg → Nibble → Instr) (v : Letter → Nat) : Instr :=
  make (oneDigit (v .x)) (oneDigit (v .y)) (oneDigit (v .n))

end Format

open Format in
/-- The formats of the instructions. -/
def formats : List Format :=
  [⟨⟨"00e0", "cls", ""⟩, "cls", fun _ => .clear⟩,
    ⟨⟨"00ee", "ret", ""⟩, "ret", fun _ => .ret⟩,
    ⟨⟨"1AAA", "jmp", "AAA"⟩, "jmp", ofAddress .jump⟩,
    ⟨⟨"2AAA", "call", "AAA"⟩, "call", ofAddress .call⟩,
    ⟨⟨"3xBB", "se", "#BB, vx"⟩, "seb", ofByte fun x b => .skip (.byteEq x b)⟩,
    ⟨⟨"4xBB", "sne", "#BB, vx"⟩, "sneb", ofByte fun x b => .skip (.byteNe x b)⟩,
    ⟨⟨"5xy0", "se", "vy, vx"⟩, "se", ofRegisters fun x y => .skip (.regEq x y)⟩,
    ⟨⟨"6xBB", "mov", "#BB, vx"⟩, "movb", ofByte .loadByte⟩,
    ⟨⟨"7xBB", "add", "#BB, vx"⟩, "addb", ofByte .addByte⟩,
    ⟨⟨"8xy0", "mov", "vy, vx"⟩, "mov", ofRegisters (.alu .copy)⟩,
    ⟨⟨"8xy1", "or", "vy, vx"⟩, "or", ofRegisters (.alu .or)⟩,
    ⟨⟨"8xy2", "and", "vy, vx"⟩, "and", ofRegisters (.alu .and)⟩,
    ⟨⟨"8xy3", "xor", "vy, vx"⟩, "xor", ofRegisters (.alu .xor)⟩,
    ⟨⟨"8xy4", "add", "vy, vx"⟩, "add", ofRegisters (.alu .add)⟩,
    ⟨⟨"8xy5", "sub", "vy, vx"⟩, "sub", ofRegisters (.alu .sub)⟩,
    ⟨⟨"8xy6", "shr", "vy, vx"⟩, "shr", ofRegisters (.alu .shr)⟩,
    ⟨⟨"8xy7", "bsub", "vy, vx"⟩, "bsub", ofRegisters (.alu .rsub)⟩,
    ⟨⟨"8xye", "shl", "vy, vx"⟩, "shl", ofRegisters (.alu .shl)⟩,
    ⟨⟨"9xy0", "sne", "vy, vx"⟩, "sne", ofRegisters fun x y => .skip (.regNe x y)⟩,
    ⟨⟨"aAAA", "mov", "$AAA, I"⟩, "movI", ofAddress .loadIndex⟩,
    ⟨⟨"bAAA", "jmp", "$AAA+v0"⟩, "jmpr", ofAddress .jumpOffset⟩,
    ⟨⟨"cxBB", "rand", "#BB, vx"⟩, "rand", ofByte .random⟩,
    ⟨⟨"dxyn", "draw", "#n, vx, vy"⟩, "draw", ofSize .draw⟩,
    ⟨⟨"ex9e", "sek", "vx"⟩, "sek", ofRegister fun x => .skip (.keyDown x)⟩,
    ⟨⟨"exa1", "snek", "vx"⟩, "snek", ofRegister fun x => .skip (.keyUp x)⟩,
    ⟨⟨"fx07", "mov", "DT, vx"⟩, "getdt", ofRegister .readDelay⟩,
    ⟨⟨"fx0a", "waitk", "vx"⟩, "waitk", ofRegister .awaitKey⟩,
    ⟨⟨"fx15", "mov", "vx, DT"⟩, "setdt", ofRegister .setDelay⟩,
    ⟨⟨"fx18", "mov", "vx, ST"⟩, "movst", ofRegister .setSound⟩,
    ⟨⟨"fx1e", "add", "vx, I"⟩, "addI", ofRegister .addIndex⟩,
    ⟨⟨"fx29", "font", "vx, I"⟩, "font", ofRegister .glyph⟩,
    ⟨⟨"fx33", "bcd", "vx, &I"⟩, "bcd", ofRegister .decimal⟩,
    ⟨⟨"fx55", "dmao", "vx"⟩, "dmao", ofRegister .save⟩,
    ⟨⟨"fx65", "dmai", "vx"⟩, "dmai", ofRegister .restore⟩]

namespace Layout

/-- The layout of a word that is no instruction. -/
def invalid : Layout := ⟨"AAAA", "inval", "AAAA"⟩

/-- Every layout there is. -/
def all : List Layout := invalid :: formats.map Format.toLayout

/-- The template of the word. -/
def wordTemplate (l : Layout) : Template Nat :=
  .ofString (fun c => (Text.Numeral.digitValue? 16 c).getD 0) l.word

/-- The digits of a word, the most significant first. -/
def digits (l : Layout) (v : Letter → Nat) : List Nat :=
  l.wordTemplate.fill (fun _ d => d) v

end Layout

/-- The digits of a word, the most significant first. -/
def Word.digits (w : UInt16) : List Nat := [3, 2, 1, 0].map fun k => (nibble w k).val

/-- The word has the fixed digits of the layout at their places. -/
def Layout.Fits (l : Layout) (w : UInt16) : Prop := ∃ v, Word.digits w = l.digits v

/-- The name of an operand in record notation. -/
def Letter.name : Letter → String
  | .A => "A"
  | .B => "B"
  | .x => "x"
  | .y => "y"
  | .n => "n"

/-- An operand of an instruction is below this. -/
def Letter.bound : Letter → Nat
  | .A => 4096
  | .B => 256
  | .x | .y | .n => 16

/-- The value of an operand of an instruction, zero if it has no such operand. -/
def Instr.operand (i : Instr) (c : Letter) : Nat := (i.fields.lookup c.name).getD 0

namespace Word

/-- The digits of a word are its remainders. -/
theorem digits_eq (w : UInt16) :
    digits w = [w.toNat / 4096 % 16, w.toNat / 256 % 16, w.toNat / 16 % 16, w.toNat % 16] := by
  simp [digits, nibble]

/-- A word is known by its digits. -/
theorem digits_inj {v w : UInt16} : digits v = digits w ↔ v = w := by
  constructor
  · intro h
    have hv := v.toNat_lt
    have hw := w.toNat_lt
    simp only [digits_eq, List.cons.injEq, and_true] at h
    exact UInt16.toNat_inj.1 (by omega)
  · exact congrArg digits

end Word

namespace Instr

/-- **The operands of an instruction fit their digits.** -/
theorem operand_lt (i : Instr) (c : Letter) : i.operand c < c.bound := by
  have hbyte (b : UInt8) : b.toNat < 256 := b.toNat_lt
  cases i with
  | skip t =>
    cases t <;> cases c <;>
      simp [operand, fields, Test.fields, Letter.name, List.lookup_cons, Letter.bound, hbyte]
  | _ =>
    cases c <;> simp [operand, fields, Letter.name, List.lookup_cons, Letter.bound, hbyte]

/-- The name of its form and its operands make an instruction. -/
theorem find_format (i : Instr) :
    ∃ f, (formats.find? fun f => f.form == i.form) = some f ∧ f.make i.operand = i := by
  cases i with
  | skip t =>
    cases t <;> refine ⟨_, rfl, ?_⟩ <;>
      simp [operand, fields, Test.fields, Letter.name, List.lookup_cons]
  | alu op x y =>
    cases op <;> refine ⟨_, rfl, ?_⟩ <;> simp [operand, fields, Letter.name, List.lookup_cons]
  | _ =>
    refine ⟨_, rfl, ?_⟩
    simp [operand, fields, Letter.name, List.lookup_cons]

/-- **Every instruction has a format,** the one of its form. -/
theorem exists_format (i : Instr) : ∃ f ∈ formats, f.form = i.form ∧ f.make i.operand = i := by
  obtain ⟨f, hfind, hmake⟩ := i.find_format
  have hform : f.form = i.form :=
    beq_iff_eq.1 (List.find?_some (p := fun f : Format => f.form == i.form) hfind)
  exact ⟨f, List.mem_of_find?_eq_some hfind, hform, hmake⟩

end Instr

/-- **The word of an instruction is the template of its format,** filled with the
operands. -/
theorem digits_make : ∀ f ∈ formats, ∀ v, Word.digits (f.make v).encode = f.digits v := by
  simp only [formats, List.forall_mem_cons, List.not_mem_nil, false_implies, implies_true,
    and_true]
  and_intros
  all_goals
    intro v
    simp [Word.digits_eq, Instr.toNat_encode, Instr.code, AluOp.code, Layout.digits,
      Layout.wordTemplate, Template.ofString, Letter.ofChar?, Text.Numeral.digitValue?,
      Text.Numeral.alphanumericValue?, Option.filter_some]
    try omega

/-- The words of two formats have no digits in common. -/
theorem formats_apart : formats.Pairwise fun f g =>
    Template.apart (fun _ d => d) f.wordTemplate g.wordTemplate = true := by
  decide +kernel

/-- **No word fits two formats.** -/
theorem eq_of_fits {w : UInt16} {f g : Format} (hf : f ∈ formats) (hg : g ∈ formats)
    (hfw : f.Fits w) (hgw : g.Fits w) : f = g := by
  obtain ⟨v, hv⟩ := hfw
  obtain ⟨v', hv'⟩ := hgw
  exact Template.eq_of_fill_eq formats_apart hf hg (hv.symm.trans hv')

/-- **The decoder implements the templates digit by digit:** a word is an instruction
exactly if operands fill the template of a format to the word, and these operands make
the instruction. -/
theorem decode_eq_some_iff_format {w : UInt16} {i : Instr} :
    Instr.decode w = some i ↔
      ∃ f ∈ formats, ∃ v, Word.digits w = f.digits v ∧ f.make v = i := by
  rw [Instr.decode_eq_some_iff]
  constructor
  · rintro rfl
    obtain ⟨f, hf, -, hmake⟩ := i.exists_format
    have hdigits := digits_make f hf i.operand
    rw [hmake] at hdigits
    exact ⟨f, hf, i.operand, hdigits, hmake⟩
  · rintro ⟨f, hf, v, hdigits, rfl⟩
    exact Word.digits_inj.1 ((digits_make f hf v).trans hdigits.symm)

end Chip8
