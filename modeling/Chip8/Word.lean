/-
# Words and their digits

A machine word has 16 bits, that is four digits in base sixteen.  Digit `k` is
counted from the right; the two digits on the right are the low byte of the
word, the three digits on the right its address.  In memory a word takes two
bytes, the high byte first.
-/

namespace Chip8

/-- An address of the 4096-byte memory. -/
abbrev Address := Fin 4096

/-- The number of one of the sixteen registers. -/
abbrev Reg := Fin 16

/-- A digit in base sixteen. -/
abbrev Nibble := Fin 16

/-- There is a register and a digit, so a numeral can stand for one.  The zero is the
one that numerals are elaborated with. -/
instance neZero_sixteen : @NeZero Nat Zero.ofOfNat0 16 := ⟨by decide⟩

/-- There is an address, so a numeral can stand for one. -/
instance neZero_memorySize : @NeZero Nat Zero.ofOfNat0 4096 := ⟨by decide⟩

/-- An address as a machine word. -/
def Address.toWord (a : Address) : UInt16 := UInt16.ofNat a.val

namespace Word

/-- Digit `k` of a word in base sixteen, counted from the right. -/
def nibble (w : UInt16) (k : Nat) : Nibble :=
  ⟨w.toNat / Nat.pow 16 k % 16, Nat.mod_lt _ (by decide)⟩

/-- The low byte of a word. -/
def lowByte (w : UInt16) : UInt8 := UInt8.ofNat w.toNat

/-- The three digits on the right, as an address. -/
def address (w : UInt16) : Address :=
  ⟨w.toNat % 4096, Nat.mod_lt _ (by decide)⟩

/-- The word of a high and a low byte. -/
def ofBytes (high low : UInt8) : UInt16 :=
  UInt16.ofNat (256 * high.toNat + low.toNat)

/-- The low byte of a word is its remainder. -/
theorem toNat_lowByte (w : UInt16) : (lowByte w).toNat = w.toNat % 256 := by
  simp [lowByte]

/-- A word has its high byte above its low byte. -/
theorem toNat_ofBytes (high low : UInt8) :
    (ofBytes high low).toNat = 256 * high.toNat + low.toNat := by
  have h := high.toNat_lt
  have l := low.toNat_lt
  simp only [ofBytes, UInt16.toNat_ofNat']
  omega

end Word

/-- An address fits into a word. -/
theorem Address.toNat_toWord (a : Address) : a.toWord.toNat = a.val := by
  have := a.isLt
  simp only [Address.toWord, UInt16.toNat_ofNat']
  omega

end Chip8
