/-
# Hexadecimal text, read back

A numeral is read digit by digit, the most significant first, and a string of bytes two
digits a byte.  Both read what was written: the zeros that fill a numeral up add nothing
to its value (`hexValue_hex`), and a byte has room for two digits and not for three
(`bytesOfHex_hexBytes`).

| text | read by | as |
| --- | --- | --- |
| `hex width n` | `hexValue` | `n`, whatever the width |
| `hexBytes bytes` | `bytesOfHex` | `bytes` |
-/

import Chip8.Text.Numeral.Reader
import Chip8.Text.Numeral

namespace Chip8
namespace Text

/-- The character is a hexadecimal digit. -/
def isHexDigit (c : Char) : Bool := (Numeral.digitValue? 16 c).isSome

/-- The value of a hexadecimal digit. -/
def hexDigitValue (c : Char) : Nat := (Numeral.digitValue? 16 c).getD 0

/-- The number that digits write. -/
def hexValue (cs : List Char) : Nat := cs.foldl (fun n c => 16 * n + hexDigitValue c) 0

/-- The bytes that digits write, two digits a byte. -/
def bytesOfHex : List Char → List UInt8
  | high :: low :: cs => .ofNat (16 * hexDigitValue high + hexDigitValue low) :: bytesOfHex cs
  | _ => []

/-- The character of a digit is read as that digit. -/
theorem digitValue?_digitChar {d : Nat} (h : d < 16) :
    Numeral.digitValue? 16 (Nat.digitChar d) = some d := by
  have hall : ∀ d < 16, Numeral.digitValue? 16 (Nat.digitChar d) = some d := by decide
  exact hall d h

/-- The value of the character of a digit is that digit. -/
theorem hexDigitValue_digitChar {d : Nat} (h : d < 16) : hexDigitValue (Nat.digitChar d) = d := by
  rw [hexDigitValue, digitValue?_digitChar h, Option.getD_some]

/-- A numeral consists of hexadecimal digits. -/
theorem isHexDigit_of_mem_hex {c : Char} {width n : Nat} (h : c ∈ (hex width n).toList) :
    isHexDigit c = true := by
  rcases exists_digitChar_of_mem_hex h with ⟨d, hd, rfl⟩
  rw [isHexDigit, digitValue?_digitChar hd, Option.isSome_some]

/-- What is no hexadecimal digit stands in no numeral. -/
theorem notMem_hex_of_isHexDigit {c : Char} (h : isHexDigit c = false) (width n : Nat) :
    c ∉ (hex width n).toList := by
  intro hmem
  rw [isHexDigit_of_mem_hex hmem] at h
  cases h

/-- One more digit moves the others to the left. -/
theorem hexValue_concat (cs : List Char) (c : Char) :
    hexValue (cs ++ [c]) = 16 * hexValue cs + hexDigitValue c := by
  rw [hexValue, List.foldl_append]
  rfl

/-- Zeros in front have no value. -/
theorem hexValue_replicate_append (k : Nat) (cs : List Char) :
    hexValue (List.replicate k '0' ++ cs) = hexValue cs := by
  induction k with
  | zero => rfl
  | succ k ih => exact ih

/-- The digits of a number write it. -/
theorem hexValue_toDigits (n : Nat) : hexValue (Nat.toDigits 16 n) = n := by
  induction n using Nat.strongRecOn with
  | ind n ih =>
    by_cases hn : n < 16
    · rw [Nat.toDigits_of_lt_base hn]
      show 16 * 0 + hexDigitValue (Nat.digitChar n) = n
      rw [hexDigitValue_digitChar hn, Nat.mul_zero, Nat.zero_add]
    · rw [Nat.toDigits_of_base_le (by decide) (Nat.not_lt.1 hn), hexValue_concat,
        ih (n / 16) (by omega), hexDigitValue_digitChar (Nat.mod_lt n (by decide))]
      omega

/-- **A numeral tells its number,** in whatever width it is written. -/
theorem hexValue_hex (width n : Nat) : hexValue (hex width n).toList = n := by
  rw [hex, String.toList_ofList, List.leftpad, hexValue_replicate_append, hexValue_toDigits]

/-- A byte has two digits. -/
theorem toList_hex_byte (b : UInt8) :
    (hex 2 b.toNat).toList = [Nat.digitChar (b.toNat / 16), Nat.digitChar (b.toNat % 16)] := by
  have hb := b.toNat_lt
  rw [toList_hex_succ (by decide), toList_hex_one (by omega)]
  rfl

/-- Bytes are written one after the other, two digits each. -/
theorem toList_hexBytes (bytes : List UInt8) :
    (hexBytes bytes).toList = bytes.flatMap fun b => (hex 2 b.toNat).toList := by
  rw [hexBytes, String.toList_join, List.flatMap_map]

/-- **A string of bytes can be read back.** -/
theorem bytesOfHex_hexBytes (bytes : List UInt8) : bytesOfHex (hexBytes bytes).toList = bytes := by
  simp only [toList_hexBytes, toList_hex_byte]
  induction bytes with
  | nil => rfl
  | cons b bytes ih =>
    have hb := b.toNat_lt
    have hvalue : 16 * (b.toNat / 16) + b.toNat % 16 = b.toNat := Nat.div_add_mod b.toNat 16
    simp only [List.flatMap_cons, List.cons_append, List.nil_append, bytesOfHex]
    rw [hexDigitValue_digitChar (by omega), hexDigitValue_digitChar (by omega), hvalue, ih,
      UInt8.ofNat_toNat]

end Text
end Chip8
