/-
# What a line of disassembly tells

Words, instructions and lines of disassembly tell the same.  That encoding and decoding
undo each other is shown with them; what is added here is that a line tells the word,
even if it is no instruction, although several forms of instruction share a mnemonic
(`mov` has six, `add` three).

A line is a template, too: the mnemonic, filled up with spaces, and the operands.

| step | why |
| --- | --- |
| the line tells its layout | the templates of two lines have nothing in common |
| then it tells the operands | what is filled into a template can be read back |
| then it tells the word | an operand has the same number of digits in both templates |

The style in which a line is written does not matter, because removing the control
sequences leaves the line.
-/

import Chip8.Proofs.Format

namespace Chip8

/-! ## Lines as templates -/

/-- How a digit of an operand is written: in upper case for a register. -/
def writeDigit : Letter → Nat → Char
  | .x, d | .y, d => (Nat.digitChar d).toUpper
  | .A, d | .B, d | .n, d => Nat.digitChar d

namespace Layout

/-- The template of a line: the mnemonic, filled up, and the operands. -/
def lineTemplate (l : Layout) : Template Char :=
  (l.mnemonic.toList.rightpad Instr.mnemonicWidth ' ').map Slot.fixed ++
    Template.ofString id l.operands

/-- The characters of a line. -/
def line (l : Layout) (v : Letter → Nat) : List Char := l.lineTemplate.fill writeDigit v

end Layout

/-- Different digits of an operand are written differently. -/
theorem writeDigit_inj (c : Letter) :
    ∀ d < 16, ∀ e < 16, writeDigit c d = writeDigit c e → d = e := by
  cases c <;> decide

/-- A register is written as a `v` and its digit in upper case. -/
@[simp] theorem toList_assembly_oneDigit (n : Nat) :
    (Reg.assembly (oneDigit n)).toList = ['v', (Nat.digitChar (n % 16)).toUpper] := by
  rw [Reg.assembly, String.toList_append, Text.toList_hexUpper (Fin.isLt _), val_oneDigit]
  rfl

/-- A byte is written as a `#` and both of its digits. -/
@[simp] theorem toList_byteOperand_ofNat (n : Nat) :
    (byteOperand (.ofNat n)).toList =
      ['#', Nat.digitChar (n / 16 % 16), Nat.digitChar (n % 16)] := by
  have hhigh : (UInt8.ofNat n).toNat / 16 = n / 16 % 16 := by
    rw [UInt8.toNat_ofNat']
    omega
  have hlow : (UInt8.ofNat n).toNat % 16 = n % 16 := by
    rw [UInt8.toNat_ofNat']
    omega
  rw [byteOperand, String.toList_append, Text.toList_hex_succ (by decide), hhigh, hlow,
    Text.toList_hex_one (Nat.mod_lt _ (by decide))]
  rfl

/-- A size is written as one digit. -/
@[simp] theorem toList_hex_size (n : Nat) : (Text.hex 1 (n % 16)).toList = [Nat.digitChar (n % 16)] :=
  Text.toList_hex_one (Nat.mod_lt n (by decide))

/-- An address is written as three digits. -/
@[simp] theorem toList_hex_address (n : Nat) :
    (Text.hex 3 (n % 4096)).toList =
      [Nat.digitChar (n / 256 % 16), Nat.digitChar (n / 16 % 16), Nat.digitChar (n % 16)] := by
  have hfirst : n % 4096 / 16 / 16 = n / 256 % 16 := by omega
  have hsecond : n % 4096 / 16 % 16 = n / 16 % 16 := by omega
  have hthird : n % 4096 % 16 = n % 16 := by omega
  rw [Text.toList_hex_succ (by decide), Text.toList_hex_succ (by decide), hfirst, hsecond, hthird,
    Text.toList_hex_one (Nat.mod_lt _ (by decide))]
  rfl

/-- A word is written as four digits. -/
@[simp] theorem toList_hex_word (w : UInt16) :
    (Text.hex 4 w.toNat).toList =
      [Nat.digitChar (w.toNat / 4096 % 16), Nat.digitChar (w.toNat / 256 % 16),
        Nat.digitChar (w.toNat / 16 % 16), Nat.digitChar (w.toNat % 16)] := by
  have hw := w.toNat_lt
  have hfirst : w.toNat / 16 = w.toNat / 16 % 4096 := by omega
  have hthree := toList_hex_address (w.toNat / 16)
  rw [← hfirst] at hthree
  rw [Text.toList_hex_succ (by decide), hthree, Nat.div_div_eq_div_mul, Nat.div_div_eq_div_mul]
  rfl

/-- **The text of an instruction is the line of its format,** filled with the operands. -/
theorem line_make : ∀ f ∈ formats, ∀ v, (f.make v).assembly.toList = f.line v := by
  have hparts : ∀ f ∈ formats, ∀ v, (f.make v).mnemonic = f.mnemonic ∧
      (", ".intercalate (f.make v).operands).toList =
        (Template.ofString id f.operands).fill writeDigit v := by
    simp only [formats, List.forall_mem_cons, List.not_mem_nil, false_implies, implies_true,
      and_true]
    and_intros
    all_goals
      intro v
      refine ⟨rfl, ?_⟩
      simp [Template.ofString, Letter.ofChar?, writeDigit, Instr.operands, Test.operands,
        addressOperand]
  intro f hf v
  obtain ⟨hmnemonic, hoperands⟩ := hparts f hf v
  rw [Instr.assembly, String.toList_append, Text.toList_padRight, hmnemonic, hoperands,
    Layout.line, Layout.lineTemplate, Template.fill_fixed_append]

/-- Every word has a layout, whether or not it is an instruction. -/
theorem Word.exists_layout (w : UInt16) :
    ∃ l ∈ Layout.all, ∃ v, digits w = l.digits v ∧ (assemblySpan w).text.toList = l.line v := by
  cases hd : Instr.decode w with
  | none =>
    refine ⟨Layout.invalid, List.mem_cons_self, fun _ => w.toNat, ?_, ?_⟩
    · rw [digits_eq]
      simp [Layout.digits, Layout.wordTemplate, Layout.invalid, Template.ofString, Letter.ofChar?]
    · rw [assemblySpan, hd, Layout.line, Layout.lineTemplate, Template.fill_fixed_append]
      simp [Text.Span.styled, Text.toList_padRight, Layout.invalid, Template.ofString,
        Letter.ofChar?, writeDigit]
  | some i =>
    have hw : i.encode = w := Instr.encode_of_decode hd
    obtain ⟨f, hf, -, hmake⟩ := i.exists_format
    have hdigits := digits_make f hf i.operand
    have hline := line_make f hf i.operand
    rw [hmake] at hdigits hline
    rw [hw] at hdigits
    refine ⟨f.toLayout, List.mem_cons_of_mem _ (List.mem_map_of_mem hf), i.operand, hdigits, ?_⟩
    rw [assemblySpan, hd]
    exact hline

/-! ## Reading a line back -/

/-- The lines of two layouts have no text in common. -/
theorem lines_apart : Layout.all.Pairwise fun l k =>
    Template.apart writeDigit l.lineTemplate k.lineTemplate = true := by
  decide +kernel

/-- An operand has as many digits in the line as in the word. -/
theorem width_lineTemplate {l : Layout} (hl : l ∈ Layout.all) (c : Letter) :
    l.lineTemplate.width c = l.wordTemplate.width c := by
  have hall : ∀ l ∈ Layout.all, ∀ c ∈ [.A, .B, .x, .y, .n],
      l.lineTemplate.width c = l.wordTemplate.width c := by decide +kernel
  exact hall l hl c (by cases c <;> decide)

/-- **The text of a word tells the word.** -/
theorem Word.text_inj {v w : UInt16} :
    (assemblySpan v).text = (assemblySpan w).text ↔ v = w := by
  constructor
  · intro h
    obtain ⟨l, hl, a, hv, hline⟩ := exists_layout v
    obtain ⟨k, hk, b, hw, hline'⟩ := exists_layout w
    have heq : l.line a = k.line b := by rw [← hline, ← hline', h]
    obtain rfl : l = k := Template.eq_of_fill_eq lines_apart hl hk heq
    have hoperands := (Template.fill_eq_iff writeDigit_inj).1 heq
    simp only [width_lineTemplate hl] at hoperands
    have hdigits : l.digits a = l.digits b :=
      (Template.fill_eq_iff fun _ _ _ _ _ hde => hde).2 hoperands
    exact digits_inj.1 (hv.trans (hdigits.trans hw.symm))
  · exact congrArg fun w => (assemblySpan w).text

/-- The character begins a control sequence or ends a line. -/
def Text.Breaks (c : Char) : Prop := c = '\x1b' ∨ c = '\n'

/-- No text of a word has an escape character or an end of line in it. -/
theorem Word.notMem_text {c : Char} (hc : Text.Breaks c) (w : UInt16) :
    c ∉ (assemblySpan w).text.toList := by
  intro hmem
  obtain ⟨l, hl, v, -, hline⟩ := exists_layout w
  have hfixed : ∀ l ∈ Layout.all, Slot.fixed c ∉ l.lineTemplate := by
    rcases hc with rfl | rfl
    · decide +kernel
    · decide +kernel
  have hdigit (a : Letter) : ∀ d < 16, c ≠ writeDigit a d := by
    rcases hc with rfl | rfl
    · cases a <;> decide
    · cases a <;> decide
  rw [hline] at hmem
  rcases Template.mem_fill hmem with hslot | ⟨a, d, hd, ha⟩
  · exact hfixed l hl hslot
  · exact hdigit a d hd ha

/-- The text of a word has no control sequence. -/
theorem Word.escape_notMem_text (w : UInt16) : '\x1b' ∉ (assemblySpan w).text.toList :=
  notMem_text (.inl rfl) w

/-- Written in whatever style, the text of a word tells the word. -/
theorem Word.eq_of_render_eq {v w : UInt16} {s t : Option Text.Style}
    (h : (Text.Span.mk s (assemblySpan v).text).render =
      (Text.Span.mk t (assemblySpan w).text).render) : v = w := by
  have hstrip (u : UInt16) (r : Option Text.Style) :
      Text.stripControls (Text.Span.mk r (assemblySpan u).text).render = (assemblySpan u).text := by
    have hspans : ∀ span ∈ [Text.Span.mk r (assemblySpan u).text], '\x1b' ∉ span.text.toList := by
      simpa using escape_notMem_text u
    simpa [Text.render, Text.plain] using Text.stripControls_render hspans
  rw [← text_inj, ← hstrip v s, h, hstrip]

/-- **Words, instructions and their texts determine each other.**

* Encoding and decoding are inverse, and the operands of an instruction fit.
* A word decodes to an instruction exactly if it is the word template of a format,
  filled with operands that make the instruction.
* No word fits the templates of two formats.
* Different words have different disassemblies, in whatever styles they are written;
  different instructions have different texts. -/
theorem words_instructions_and_texts_correspond :
    (∀ i : Instr, Instr.decode i.encode = some i) ∧
      (∀ w i, Instr.decode w = some i → i.encode = w ∧ ∀ c, i.operand c < c.bound) ∧
      (∀ w i, Instr.decode w = some i ↔
        ∃ f ∈ formats, ∃ v, Word.digits w = f.digits v ∧ f.make v = i) ∧
      (∀ w, ∀ f ∈ formats, ∀ g ∈ formats, f.Fits w → g.Fits w → f = g) ∧
      (∀ v w, v ≠ w → Word.disassemble v ≠ Word.disassemble w) ∧
      (∀ v w (s t : Option Text.Style), v ≠ w →
        (Text.Span.mk s (Word.assemblySpan v).text).render ≠
          (Text.Span.mk t (Word.assemblySpan w).text).render) ∧
      ∀ i j : Instr, i.assembly = j.assembly → i = j := by
  refine ⟨Instr.decode_encode, fun w i h => ⟨Instr.encode_of_decode h, i.operand_lt⟩,
    fun w i => decode_eq_some_iff_format, fun w f hf g hg => eq_of_fits hf hg, ?_, ?_, ?_⟩
  · intro v w hne h
    exact hne (Word.eq_of_render_eq (s := (Word.assemblySpan v).style)
      (t := (Word.assemblySpan w).style) h)
  · exact fun v w s t hne h => hne (Word.eq_of_render_eq h)
  · intro i j h
    have htext (k : Instr) : (Word.assemblySpan k.encode).text = k.assembly := by
      rw [Word.assemblySpan, Instr.decode_encode]
      rfl
    have hencode : i.encode = j.encode := by
      rw [← Word.text_inj, htext, htext, h]
    have hi := Instr.decode_encode i
    rw [hencode, Instr.decode_encode] at hi
    exact (Option.some.inj hi).symm

end Chip8
