/-
# Reading numerals

A numeral in radix `r ≤ 36` is an optional `+` followed by one or more digits;
letters of either case stand for the digits from ten on.  Only the ASCII digits
and letters count.  A numeral is read from left to right and refused at the
first character that is not a digit or that takes the value to the limit or
above; where one character does both, it is not a digit.

| text | refused as |
| --- | --- |
| nothing at all | `empty` |
| a lone sign, any other character | `invalidDigit` |
| a value at or above the limit | `tooLarge` |
-/

namespace Chip8
namespace Text
namespace Numeral

/-- Why a text is not a numeral below the limit. -/
inductive Refusal where
  | empty
  | invalidDigit
  | tooLarge
  deriving DecidableEq, Repr

/-- The sentence that explains a refusal. -/
def Refusal.message : Refusal → String
  | .empty => "cannot parse integer from empty string"
  | .invalidDigit => "invalid digit found in string"
  | .tooLarge => "number too large to fit in target type"

/-- The value of an ASCII digit or letter, whatever the radix. -/
def alphanumericValue? (c : Char) : Option Nat :=
  if '0' ≤ c ∧ c ≤ '9' then some (c.toNat - '0'.toNat)
  else if 'a' ≤ c ∧ c ≤ 'z' then some (c.toNat - 'a'.toNat + 10)
  else if 'A' ≤ c ∧ c ≤ 'Z' then some (c.toNat - 'A'.toNat + 10)
  else none

/-- The value of a digit in the given radix. -/
def digitValue? (radix : Nat) (c : Char) : Option Nat :=
  (alphanumericValue? c).filter (· < radix)

/-- Reads the digits `cs` after digits of value `acc`. -/
def readDigits (radix limit : Nat) (acc : Nat) : List Char → Except Refusal Nat
  | [] => .ok acc
  | c :: cs =>
    match digitValue? radix c with
    | none => .error .invalidDigit
    | some d =>
      if acc * radix + d < limit then readDigits radix limit (acc * radix + d) cs
      else .error .tooLarge

/-- Reads a numeral whose value has to be below `limit`. -/
def read (radix limit : Nat) (text : String) : Except Refusal Nat :=
  match text.toList with
  | [] => .error .empty
  | ['+'] => .error .invalidDigit
  | '+' :: cs => readDigits radix limit 0 cs
  | cs => readDigits radix limit 0 cs

/-- Reads a decimal numeral of at most 64 bits. -/
def readDecimal (text : String) : Except Refusal Nat :=
  read 10 UInt64.size text

/-- A number that is read is below the limit. -/
theorem readDigits_lt {radix limit : Nat} {cs : List Char} {acc n : Nat} (hacc : acc < limit)
    (h : readDigits radix limit acc cs = .ok n) : n < limit := by
  induction cs generalizing acc with
  | nil =>
    obtain rfl := Except.ok.inj h
    exact hacc
  | cons c cs ih =>
    rw [readDigits] at h
    split at h
    · cases h
    · split at h
      · exact ih (by assumption) h
      · cases h

/-- **A numeral that is read is below its limit.** -/
theorem read_lt {radix limit : Nat} {text : String} {n : Nat} (hlimit : 0 < limit)
    (h : read radix limit text = .ok n) : n < limit := by
  unfold read at h
  split at h
  · cases h
  · cases h
  · exact readDigits_lt hlimit h
  · exact readDigits_lt hlimit h

end Numeral
end Text
end Chip8
