/-
# Numerals

Numbers are written in decimal or in hexadecimal, most significant digit first
and without a sign.  A width is a least number of characters: shorter numerals
are filled up on the left, longer ones keep all their digits, so no numeral is
ever cut.

| function | digits | filled with |
| --- | --- | --- |
| `decimal` | `0` to `9` | |
| `decimalRight` | `0` to `9` | spaces |
| `hex` | `0` to `9`, `a` to `f` | zeros |
| `hexUpper` | `0` to `9`, `A` to `F` | |
-/

namespace Chip8
namespace Text

/-- Writes `n` in decimal. -/
def decimal (n : Nat) : String :=
  String.ofList (Nat.toDigits 10 n)

/-- Writes `n` in decimal, aligned to the right in `width` columns. -/
def decimalRight (width n : Nat) : String :=
  String.ofList ((Nat.toDigits 10 n).leftpad width ' ')

/-- Writes `n` in lower-case hexadecimal, with zeros in front up to `width` digits. -/
def hex (width n : Nat) : String :=
  String.ofList ((Nat.toDigits 16 n).leftpad width '0')

/-- Writes `n` in upper-case hexadecimal. -/
def hexUpper (n : Nat) : String :=
  String.ofList ((Nat.toDigits 16 n).map Char.toUpper)

/-- Writes a byte string, two lower-case hexadecimal digits a byte. -/
def hexBytes (bytes : List UInt8) : String :=
  String.join (bytes.map fun b => hex 2 b.toNat)

/-- Fills `s` up with spaces on the right to `width` characters. -/
def padRight (width : Nat) (s : String) : String :=
  s ++ String.ofList (List.replicate (width - s.length) ' ')

/-- A numeral is never empty. -/
theorem hex_ne_empty (width n : Nat) : hex width n ≠ "" := by
  intro h
  have := congrArg String.toList h
  simp [hex, List.leftpad] at this

/-- A number below sixteen is written as one digit. -/
theorem toList_hex_one {n : Nat} (h : n < 16) : (hex 1 n).toList = [Nat.digitChar n] := by
  rw [hex, Nat.toDigits_of_lt_base h, String.toList_ofList]
  rfl

/-- The last digit of a numeral with room for two or more, and the digits before it. -/
theorem toList_hex_succ {width : Nat} (hw : 0 < width) (n : Nat) :
    (hex (width + 1) n).toList = (hex width (n / 16)).toList ++ [Nat.digitChar (n % 16)] := by
  obtain ⟨k, rfl⟩ := Nat.exists_eq_succ_of_ne_zero (Nat.ne_of_gt hw)
  rw [hex, hex, String.toList_ofList, String.toList_ofList]
  by_cases h : n < 16
  · have hzero : n / 16 = 0 := Nat.div_eq_of_lt h
    rw [hzero, Nat.toDigits_of_lt_base h, Nat.mod_eq_of_lt h]
    simp [List.leftpad, List.replicate_succ']
  · rw [Nat.toDigits_of_base_le (by decide) (Nat.not_lt.1 h)]
    simp [List.leftpad]

/-- Hexadecimal digits are all that a number is written with. -/
theorem exists_digitChar_of_mem_toDigits {c : Char} {n : Nat} (h : c ∈ Nat.toDigits 16 n) :
    ∃ d < 16, c = Nat.digitChar d := by
  induction n using Nat.strongRecOn with
  | ind n ih =>
    by_cases hn : n < 16
    · rw [Nat.toDigits_of_lt_base hn] at h
      exact ⟨n, hn, List.mem_singleton.1 h⟩
    · rw [Nat.toDigits_of_base_le (by decide) (Nat.not_lt.1 hn)] at h
      rcases List.mem_append.1 h with h | h
      · exact ih (n / 16) (by omega) h
      · exact ⟨n % 16, Nat.mod_lt n (by decide), List.mem_singleton.1 h⟩

/-- A numeral consists of digits, also where it is filled up. -/
theorem exists_digitChar_of_mem_hex {c : Char} {width n : Nat} (h : c ∈ (hex width n).toList) :
    ∃ d < 16, c = Nat.digitChar d := by
  rw [hex, String.toList_ofList, List.leftpad] at h
  rcases List.mem_append.1 h with h | h
  · exact ⟨0, by decide, List.eq_of_mem_replicate h⟩
  · exact exists_digitChar_of_mem_toDigits h

/-- A number below sixteen is written as one digit in upper case, too. -/
theorem toList_hexUpper {n : Nat} (h : n < 16) :
    (hexUpper n).toList = [(Nat.digitChar n).toUpper] := by
  rw [hexUpper, Nat.toDigits_of_lt_base h, String.toList_ofList]
  rfl

/-- A text that is filled up has at least that width. -/
theorem le_length_padRight (width : Nat) (s : String) : width ≤ (padRight width s).length := by
  simp only [padRight, String.length_append, String.length_ofList, List.length_replicate]
  omega

/-- A text is filled up with spaces on the right. -/
theorem toList_padRight (width : Nat) (s : String) :
    (padRight width s).toList = s.toList.rightpad width ' ' := by
  rw [padRight, String.toList_append, String.toList_ofList, List.rightpad, String.length_toList]

end Text
end Chip8
