/-
# Listings

A listing shows a program word by word: the address, the coloured assembly text
and the word itself.  It may begin at an offset into the program; a single byte
left over at the end is not shown.

Addresses are formed in words of 64 bits, with two sums and a product: the address at
which the listing begins, the distance of a line from there, twice its number, and the
address of the line.  The first sum is formed before it is known whether the offset lies
in the program.  If the program is built with checks, as `disassemble` is, it stops there
if the sum has no room, and lists nothing.

| load address + offset | `disassemble` |
| --- | --- |
| below `2 ^ 64` | the lines of the program (`disassemble_eq`) |
| otherwise | stops at the sum (`disassemble_of_le`) |
-/

import Chip8.Instr.Assembly
import Chip8.Overflow

namespace Chip8

/-- A line of a listing. -/
structure Line where
  address : Nat
  word : UInt16
  deriving DecidableEq, Repr

namespace Line

/-- The text of a line. -/
def spans (l : Line) : List Text.Span :=
  [.ofText (Text.hex 3 l.address ++ ": "), Word.assemblySpan l.word, .ofText " ",
    .styled .faint (Text.hex 4 l.word.toNat), .ofText "\n"]

end Line

namespace Listing

section Arithmetic

variable {m : Type → Type} [Monad m] (A : Arithmetic m)

/-- The lines of bytes from word number `index` on, in a listing that begins at `start`. -/
def linesIn (start : Nat) : Nat → List UInt8 → m (List Line)
  | index, high :: low :: rest => do
    let distance ← A.mul 2 index
    let address ← A.add start distance
    let lines ← linesIn start (index + 1) rest
    return ⟨address, Word.ofBytes high low⟩ :: lines
  | _, _ => return []

/-- The lines of a program that lies at `loadAddress`, from an offset on. -/
def programIn (program : List UInt8) (loadAddress offset : Nat) : m (List Line) := do
  let start ← A.add loadAddress offset
  linesIn A start 0 (program.drop offset)

end Arithmetic

/-- The text of a listing. -/
def text (lines : List Line) : String := Text.render (lines.flatMap Line.spans)

/-- Lists a program that lies at `loadAddress`, from an offset on. -/
def disassemble (program : List UInt8) (loadAddress offset : Nat) : Except Overflow String := do
  return text (← programIn .checked program loadAddress offset)

/-- A listing of two parts is the listing of the one and then that of the other. -/
theorem text_append (a b : List Line) : text (a ++ b) = text a ++ text b := by
  simp [text, Text.render_append]

/-! ## Lines with room for every address -/

/-- The lines of a program whose first byte lies at `address`. -/
def ofBytes (address : Nat) : List UInt8 → List Line
  | high :: low :: rest => ⟨address, Word.ofBytes high low⟩ :: ofBytes (address + 2) rest
  | _ => []

/-- The lines of a program that lies at `loadAddress`, from an offset on. -/
def ofProgram (program : List UInt8) (loadAddress offset : Nat) : List Line :=
  ofBytes (loadAddress + offset) (program.drop offset)

/-- There is a line for each whole word. -/
theorem length_ofBytes :
    ∀ (address : Nat) (bytes : List UInt8), (ofBytes address bytes).length = bytes.length / 2
  | _, [] => by simp [ofBytes]
  | _, [_] => by simp [ofBytes]
  | address, high :: low :: rest => by
    simp only [ofBytes, List.length_cons, length_ofBytes (address + 2) rest]
    omega

/-- **A whole number of words in front is listed by itself.** -/
theorem ofBytes_append (b : List UInt8) :
    ∀ (address : Nat) (a : List UInt8), a.length % 2 = 0 →
      ofBytes address (a ++ b) = ofBytes address a ++ ofBytes (address + a.length) b
  | _, [], _ => by simp [ofBytes]
  | _, [_], h => by simp at h
  | address, high :: low :: rest, h => by
    simp only [List.length_cons] at h
    simp only [List.cons_append, ofBytes, List.length_cons]
    rw [ofBytes_append b (address + 2) rest (by omega),
      show address + (rest.length + 1 + 1) = address + 2 + rest.length by omega]

/-- Beyond the end of a program there is nothing to list. -/
theorem ofProgram_eq_nil {program : List UInt8} {offset : Nat} (h : program.length ≤ offset)
    (loadAddress : Nat) : ofProgram program loadAddress offset = [] := by
  rw [ofProgram, List.drop_of_length_le h, ofBytes]
  rintro _ _ _ ⟨⟩

/-! ## Addresses that have room -/

section Exact

variable {m : Type → Type} [Monad m] [LawfulMonad m] {A : Arithmetic m}
  {program : List UInt8} {loadAddress offset : Nat}

/-- **Lines whose addresses have room are the lines of the bytes,** in any arithmetic. -/
theorem linesIn_eq (hA : A.Exact) (start : Nat) :
    ∀ (index : Nat) (bytes : List UInt8), start + 2 * index + bytes.length ≤ UInt64.size →
      linesIn A start index bytes = pure (ofBytes (start + 2 * index) bytes)
  | _, [], _ => rfl
  | _, [_], _ => rfl
  | index, high :: low :: rest, h => by
    simp only [List.length_cons] at h
    have hmul : A.mul 2 index = pure (2 * index) := hA.mul _ _ (by omega)
    have hadd : A.add start (2 * index) = pure (start + 2 * index) := hA.add _ _ (by omega)
    have hrest := linesIn_eq hA start (index + 1) rest (by omega)
    rw [linesIn, hmul, pure_bind, hadd, pure_bind, hrest, pure_bind, ofBytes, Nat.mul_add_one,
      Nat.add_assoc]

/-- **A program is listed in any arithmetic if its addresses have room:** that at which the
listing begins, and those of the program. -/
theorem programIn_eq (hA : A.Exact) (hsum : loadAddress + offset < UInt64.size)
    (hend : loadAddress + program.length ≤ UInt64.size) :
    programIn A program loadAddress offset = pure (ofProgram program loadAddress offset) := by
  have hroom : loadAddress + offset + 2 * 0 + (program.drop offset).length ≤ UInt64.size := by
    rw [List.length_drop]
    omega
  rw [programIn, hA.add _ _ hsum, pure_bind, linesIn_eq hA _ _ _ hroom]
  rfl

/-- The lines of a program are listed if their addresses have room. -/
theorem disassemble_eq (hsum : loadAddress + offset < UInt64.size)
    (hend : loadAddress + program.length ≤ UInt64.size) :
    disassemble program loadAddress offset =
      .ok (text (ofProgram program loadAddress offset)) := by
  rw [disassemble, programIn_eq Arithmetic.exact_checked hsum hend]
  rfl

/-- **Without room for its first address a program is not listed,** whatever there is to
list. -/
theorem disassemble_of_le (h : UInt64.size ≤ loadAddress + offset) :
    disassemble program loadAddress offset = .error .sum := by
  rw [disassemble, programIn, Arithmetic.checked_add_of_le h]
  rfl

end Exact

end Listing
end Chip8
