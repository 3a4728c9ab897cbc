/-
# Instruction words

An instruction is one word.  Its first digit gives the group; `x` is the second
digit, `y` the third, `n` the fourth, `bb` the last two and `aaa` the last
three.

| word | instruction | word | instruction |
| --- | --- | --- | --- |
| `00e0` | `clear` | `baaa` | `jumpOffset` |
| `00ee` | `ret` | `cxbb` | `random` |
| `1aaa` | `jump` | `dxyn` | `draw` |
| `2aaa` | `call` | `ex9e`, `exa1` | `skip` on a key |
| `3xbb`, `4xbb` | `skip` on a byte | `fx07` | `readDelay` |
| `5xy0`, `9xy0` | `skip` on a register | `fx0a` | `awaitKey` |
| `6xbb` | `loadByte` | `fx15`, `fx18` | `setDelay`, `setSound` |
| `7xbb` | `addByte` | `fx1e`, `fx29` | `addIndex`, `glyph` |
| `8xyn` | `alu`, `n` the operator | `fx33` | `decimal` |
| `aaaa` | `loadIndex` | `fx55`, `fx65` | `save`, `restore` |

Every other word is no instruction.  The two directions are inverse
(`decode_eq_some_iff`), so an instruction has one word.
-/

import Chip8.Instr.Basic

namespace Chip8

/-- The digit that selects an operator. -/
def AluOp.code : AluOp → Nat
  | .copy => 0x0
  | .or => 0x1
  | .and => 0x2
  | .xor => 0x3
  | .add => 0x4
  | .sub => 0x5
  | .shr => 0x6
  | .rsub => 0x7
  | .shl => 0xE

/-- The operator that a digit selects. -/
def AluOp.ofCode? (n : Nat) : Option AluOp :=
  if n = 0x0 then some .copy
  else if n = 0x1 then some .or
  else if n = 0x2 then some .and
  else if n = 0x3 then some .xor
  else if n = 0x4 then some .add
  else if n = 0x5 then some .sub
  else if n = 0x6 then some .shr
  else if n = 0x7 then some .rsub
  else if n = 0xE then some .shl
  else none

namespace Instr

/-- The instruction of a word whose first digit is `f`, by its last byte. -/
def ofMisc? (x : Reg) (b : UInt8) : Option Instr :=
  if b = 0x07 then some (.readDelay x)
  else if b = 0x0A then some (.awaitKey x)
  else if b = 0x15 then some (.setDelay x)
  else if b = 0x18 then some (.setSound x)
  else if b = 0x1E then some (.addIndex x)
  else if b = 0x29 then some (.glyph x)
  else if b = 0x33 then some (.decimal x)
  else if b = 0x55 then some (.save x)
  else if b = 0x65 then some (.restore x)
  else none

/-- The instruction that a word encodes, if it encodes one. -/
def decode (w : UInt16) : Option Instr :=
  let x := Word.nibble w 2
  let y := Word.nibble w 1
  let n := Word.nibble w 0
  let b := Word.lowByte w
  let a := Word.address w
  match (Word.nibble w 3).val with
  | 0x0 => if w = 0x00E0 then some .clear else if w = 0x00EE then some .ret else none
  | 0x1 => some (.jump a)
  | 0x2 => some (.call a)
  | 0x3 => some (.skip (.byteEq x b))
  | 0x4 => some (.skip (.byteNe x b))
  | 0x5 => if n = 0 then some (.skip (.regEq x y)) else none
  | 0x6 => some (.loadByte x b)
  | 0x7 => some (.addByte x b)
  | 0x8 => (AluOp.ofCode? n).map fun op => .alu op x y
  | 0x9 => if n = 0 then some (.skip (.regNe x y)) else none
  | 0xA => some (.loadIndex a)
  | 0xB => some (.jumpOffset a)
  | 0xC => some (.random x b)
  | 0xD => some (.draw x y n)
  | 0xE =>
    if b = 0x9E then some (.skip (.keyDown x))
    else if b = 0xA1 then some (.skip (.keyUp x))
    else none
  | 0xF => ofMisc? x b
  | _ => none

/-- The word of an instruction, as a number. -/
def code : Instr → Nat
  | .clear => 0x00E0
  | .ret => 0x00EE
  | .jump a => 0x1000 + a
  | .call a => 0x2000 + a
  | .skip (.byteEq x b) => 0x3000 + 256 * x + b.toNat
  | .skip (.byteNe x b) => 0x4000 + 256 * x + b.toNat
  | .skip (.regEq x y) => 0x5000 + 256 * x + 16 * y
  | .loadByte x b => 0x6000 + 256 * x + b.toNat
  | .addByte x b => 0x7000 + 256 * x + b.toNat
  | .alu op x y => 0x8000 + 256 * x + 16 * y + op.code
  | .skip (.regNe x y) => 0x9000 + 256 * x + 16 * y
  | .loadIndex a => 0xA000 + a
  | .jumpOffset a => 0xB000 + a
  | .random x b => 0xC000 + 256 * x + b.toNat
  | .draw x y n => 0xD000 + 256 * x + 16 * y + n
  | .skip (.keyDown x) => 0xE000 + 256 * x + 0x9E
  | .skip (.keyUp x) => 0xE000 + 256 * x + 0xA1
  | .readDelay x => 0xF000 + 256 * x + 0x07
  | .awaitKey x => 0xF000 + 256 * x + 0x0A
  | .setDelay x => 0xF000 + 256 * x + 0x15
  | .setSound x => 0xF000 + 256 * x + 0x18
  | .addIndex x => 0xF000 + 256 * x + 0x1E
  | .glyph x => 0xF000 + 256 * x + 0x29
  | .decimal x => 0xF000 + 256 * x + 0x33
  | .save x => 0xF000 + 256 * x + 0x55
  | .restore x => 0xF000 + 256 * x + 0x65

/-- The word of an instruction. -/
def encode (i : Instr) : UInt16 := UInt16.ofNat i.code

end Instr

/-- An operator is selected by a single digit. -/
theorem AluOp.code_lt (op : AluOp) : op.code < 16 := by
  cases op <;> decide

/-- The digit of an operator selects it. -/
theorem AluOp.ofCode?_code (op : AluOp) : AluOp.ofCode? op.code = some op := by
  cases op <;> rfl

/-- No other digit selects the operator. -/
theorem AluOp.code_of_ofCode? {n : Nat} {op : AluOp} (h : AluOp.ofCode? n = some op) :
    op.code = n := by
  unfold AluOp.ofCode? at h
  repeat' split at h
  all_goals cases h
  all_goals subst_vars; rfl

namespace Instr

/-- The number of an instruction fits into a word. -/
theorem code_lt (i : Instr) : i.code < 65536 := by
  cases i with
  | skip t => cases t <;> (simp only [code]; grind [UInt8.toNat_lt])
  | alu op x y => have := op.code_lt; simp only [code]; omega
  | _ => simp only [code]; grind [UInt8.toNat_lt]

/-- The word of an instruction is its number, with nothing cut off. -/
theorem toNat_encode (i : Instr) : i.encode.toNat = i.code := by
  have := i.code_lt
  simp only [encode, UInt16.toNat_ofNat']
  omega

/-- An instruction that the last byte selects has this byte and its register in its number. -/
theorem ofMisc?_encode {i : Instr} {x : Reg} {b : UInt8} (h : ofMisc? x b = some i) :
    i.code = 0xF000 + 256 * x + b.toNat := by
  unfold ofMisc? at h
  repeat' split at h
  all_goals cases h
  all_goals subst_vars; rfl

/-- **Decoding undoes encoding.** -/
theorem decode_encode (i : Instr) : decode i.encode = some i := by
  have h := i.toNat_encode
  generalize i.encode = w at h
  have hg (g : Nat) (e : i.code / 4096 % 16 = g) : (Word.nibble w 3).val = g :=
    (congrArg (· / 4096 % 16) h).trans e
  have hx (x : Reg) (e : i.code / 256 % 16 = x.val) : Word.nibble w 2 = x :=
    Fin.eq_of_val_eq ((congrArg (· / 256 % 16) h).trans e)
  have hy (y : Reg) (e : i.code / 16 % 16 = y.val) : Word.nibble w 1 = y :=
    Fin.eq_of_val_eq ((congrArg (· / 16 % 16) h).trans e)
  have hn (n : Nibble) (k : Nat) (hk : n.val = k) (e : i.code / 1 % 16 = k) :
      Word.nibble w 0 = n :=
    Fin.eq_of_val_eq (((congrArg (· / 1 % 16) h).trans e).trans hk.symm)
  have ha (a : Address) (e : i.code % 4096 = a.val) : Word.address w = a :=
    Fin.eq_of_val_eq ((congrArg (· % 4096) h).trans e)
  have hb (b : UInt8) (k : Nat) (hk : b.toNat = k) (e : i.code % 256 = k) :
      Word.lowByte w = b :=
    UInt8.toNat_inj.1
      ((((Word.toNat_lowByte w).trans (congrArg (· % 256) h)).trans e).trans hk.symm)
  cases i with
  | clear => rw [UInt16.toNat_inj.1 (h.trans rfl : _ = (0x00E0 : UInt16).toNat)]; rfl
  | ret => rw [UInt16.toNat_inj.1 (h.trans rfl : _ = (0x00EE : UInt16).toNat)]; rfl
  | jump a =>
    simp only [code] at hg ha
    rw [decode, hg 1 (by omega), ha a (by omega)]
    rfl
  | call a =>
    simp only [code] at hg ha
    rw [decode, hg 2 (by omega), ha a (by omega)]
    rfl
  | skip t =>
    cases t with
    | byteEq x b =>
      have := b.toNat_lt
      simp only [code] at hg hx hb
      rw [decode, hg 3 (by omega), hx x (by omega), hb b _ rfl (by omega)]
      rfl
    | byteNe x b =>
      have := b.toNat_lt
      simp only [code] at hg hx hb
      rw [decode, hg 4 (by omega), hx x (by omega), hb b _ rfl (by omega)]
      rfl
    | regEq x y =>
      simp only [code] at hg hx hy hn
      rw [decode, hg 5 (by omega), hx x (by omega), hy y (by omega), hn 0 0 rfl (by omega)]
      rfl
    | regNe x y =>
      simp only [code] at hg hx hy hn
      rw [decode, hg 9 (by omega), hx x (by omega), hy y (by omega), hn 0 0 rfl (by omega)]
      rfl
    | keyDown x =>
      simp only [code] at hg hx hb
      rw [decode, hg 0xE (by omega), hx x (by omega), hb 0x9E 0x9E rfl (by omega)]
      rfl
    | keyUp x =>
      simp only [code] at hg hx hb
      rw [decode, hg 0xE (by omega), hx x (by omega), hb 0xA1 0xA1 rfl (by omega)]
      rfl
  | loadByte x b =>
    have := b.toNat_lt
    simp only [code] at hg hx hb
    rw [decode, hg 6 (by omega), hx x (by omega), hb b _ rfl (by omega)]
    rfl
  | addByte x b =>
    have := b.toNat_lt
    simp only [code] at hg hx hb
    rw [decode, hg 7 (by omega), hx x (by omega), hb b _ rfl (by omega)]
    rfl
  | alu op x y =>
    have := op.code_lt
    simp only [code] at hg hx hy hn
    rw [decode, hg 8 (by omega), hx x (by omega), hy y (by omega),
      hn ⟨op.code, op.code_lt⟩ op.code rfl (by omega)]
    simp only [op.ofCode?_code, Option.map_some]
  | loadIndex a =>
    simp only [code] at hg ha
    rw [decode, hg 0xA (by omega), ha a (by omega)]
    rfl
  | jumpOffset a =>
    simp only [code] at hg ha
    rw [decode, hg 0xB (by omega), ha a (by omega)]
    rfl
  | random x b =>
    have := b.toNat_lt
    simp only [code] at hg hx hb
    rw [decode, hg 0xC (by omega), hx x (by omega), hb b _ rfl (by omega)]
    rfl
  | draw x y n =>
    simp only [code] at hg hx hy hn
    rw [decode, hg 0xD (by omega), hx x (by omega), hy y (by omega), hn n _ rfl (by omega)]
    rfl
  | readDelay x =>
    simp only [code] at hg hx hb
    rw [decode, hg 0xF (by omega), hx x (by omega), hb 0x07 0x07 rfl (by omega)]
    rfl
  | awaitKey x =>
    simp only [code] at hg hx hb
    rw [decode, hg 0xF (by omega), hx x (by omega), hb 0x0A 0x0A rfl (by omega)]
    rfl
  | setDelay x =>
    simp only [code] at hg hx hb
    rw [decode, hg 0xF (by omega), hx x (by omega), hb 0x15 0x15 rfl (by omega)]
    rfl
  | setSound x =>
    simp only [code] at hg hx hb
    rw [decode, hg 0xF (by omega), hx x (by omega), hb 0x18 0x18 rfl (by omega)]
    rfl
  | addIndex x =>
    simp only [code] at hg hx hb
    rw [decode, hg 0xF (by omega), hx x (by omega), hb 0x1E 0x1E rfl (by omega)]
    rfl
  | glyph x =>
    simp only [code] at hg hx hb
    rw [decode, hg 0xF (by omega), hx x (by omega), hb 0x29 0x29 rfl (by omega)]
    rfl
  | decimal x =>
    simp only [code] at hg hx hb
    rw [decode, hg 0xF (by omega), hx x (by omega), hb 0x33 0x33 rfl (by omega)]
    rfl
  | save x =>
    simp only [code] at hg hx hb
    rw [decode, hg 0xF (by omega), hx x (by omega), hb 0x55 0x55 rfl (by omega)]
    rfl
  | restore x =>
    simp only [code] at hg hx hb
    rw [decode, hg 0xF (by omega), hx x (by omega), hb 0x65 0x65 rfl (by omega)]
    rfl

/-- **Only the word of an instruction decodes to it.** -/
theorem encode_of_decode {w : UInt16} {i : Instr} (h : decode w = some i) : i.encode = w := by
  apply UInt16.toNat_inj.1
  rw [toNat_encode]
  have hw := w.toNat_lt
  have h3 : (Word.nibble w 3).val = w.toNat / 4096 % 16 := rfl
  have h2 : (Word.nibble w 2).val = w.toNat / 256 % 16 := rfl
  have h1 : (Word.nibble w 1).val = w.toNat / 16 % 16 := rfl
  have h0 : (Word.nibble w 0).val = w.toNat / 1 % 16 := rfl
  have ha : (Word.address w).val = w.toNat % 4096 := rfl
  have hb : (Word.lowByte w).toNat = w.toNat % 256 := Word.toNat_lowByte w
  unfold decode at h
  simp only at h
  split at h
  · split at h
    · cases h; subst_vars; rfl
    · split at h
      · cases h; subst_vars; rfl
      · cases h
  case h_6 | h_10 =>
    split at h
    · rename_i hn
      cases h
      have := congrArg Fin.val hn
      simp only [code]
      omega
    · cases h
  case h_9 =>
    obtain ⟨op, hop, rfl⟩ := Option.map_eq_some_iff.1 h
    have := AluOp.code_of_ofCode? hop
    simp only [code]
    omega
  case h_15 =>
    split at h
    · rename_i hn
      cases h
      have : (Word.lowByte w).toNat = 0x9E := by rw [hn]; rfl
      simp only [code]
      omega
    · split at h
      · rename_i hn
        cases h
        have : (Word.lowByte w).toNat = 0xA1 := by rw [hn]; rfl
        simp only [code]
        omega
      · cases h
  case h_16 =>
    have := ofMisc?_encode h
    omega
  case h_17 => cases h
  all_goals
    cases h
    simp only [code]
    omega

/-- **A word encodes the instruction whose word it is,** and no other. -/
theorem decode_eq_some_iff {w : UInt16} {i : Instr} : decode w = some i ↔ i.encode = w :=
  ⟨encode_of_decode, fun h => h ▸ decode_encode i⟩

end Instr
end Chip8
