/-
# Braille cells

A cell of eight dots shows two columns of four points.  The dots are numbered
down the first column, then down the second, except that the bottom row, which
was added to the six-dot cell later, comes last:

| row | left dot | right dot |
| ---: | ---: | ---: |
| 0 | 0 | 3 |
| 1 | 1 | 4 |
| 2 | 2 | 5 |
| 3 | 6 | 7 |

The character of a cell is `U+2800` plus `2 ^ k` for each dot `k` that is set;
a cell without dots is shown as a space.
-/

namespace Chip8
namespace Text
namespace Braille

/-- The number of the dot in column `x < 2` and row `y < 4` of a cell. -/
def dot (x y : Nat) : Nat :=
  if y < 3 then 3 * x + y else 6 + x

/-- A cell has eight dots. -/
theorem dot_lt {x y : Nat} (hx : x < 2) : dot x y < 8 := by
  unfold dot; split <;> omega

/-- Each place in a cell has a dot of its own. -/
theorem dot_inj {x y x' y' : Nat} (hx : x < 2) (hy : y < 4) (hx' : x' < 2) (hy' : y' < 4) :
    dot x y = dot x' y' ↔ x = x' ∧ y = y' := by
  unfold dot; split <;> split <;> omega

/-- Each dot has its place in a cell. -/
theorem exists_dot {k : Nat} (hk : k < 8) : ∃ x y, x < 2 ∧ y < 4 ∧ dot x y = k := by
  by_cases hlast : k < 6
  · exact ⟨k / 3, k % 3, by omega, by omega, by unfold dot; split <;> omega⟩
  · exact ⟨k - 6, 3, by omega, by omega, by unfold dot; split <;> omega⟩

/-- The character that shows the dots of a cell, dot `k` in bit `k`. -/
def ofPattern (p : BitVec 8) : Char :=
  if p = 0#8 then ' ' else Char.ofNat (0x2800 + p.toNat)

/-- The dot in column `x` and row `y` is set in the character of a cell. -/
def hasDot (c : Char) (x y : Nat) : Bool :=
  c != ' ' && (c.toNat - 0x2800).testBit (dot x y)

/-- **The character of a cell tells its dots.** -/
theorem hasDot_ofPattern (p : BitVec 8) (x y : Nat) :
    hasDot (ofPattern p) x y = p.getLsbD (dot x y) := by
  by_cases hp : p = 0#8
  · subst hp
    exact BitVec.getLsbD_zero.symm
  · have hlt : p.toNat < 256 := p.isLt
    have hvalid : (0x2800 + p.toNat).isValidChar := by
      unfold Nat.isValidChar
      omega
    have hcode : (ofPattern p).toNat = 0x2800 + p.toNat := by
      rw [ofPattern, if_neg hp, Char.ofNat, dif_pos hvalid]
      rfl
    have hspace : ofPattern p ≠ ' ' := by
      intro h
      rw [h] at hcode
      have : ' '.toNat = 32 := rfl
      omega
    rw [hasDot, hcode, Nat.add_sub_cancel_left, bne_iff_ne.2 hspace, Bool.true_and]
    rfl

/-- The character shows the dots of a cell, and is a space if there are none. -/
structure Shows (c : Char) (dots : Nat → Nat → Bool) : Prop where
  hasDot : ∀ x y, x < 2 → y < 4 → hasDot c x y = dots x y
  space : (∀ x y, x < 2 → y < 4 → dots x y = false) → c = ' '

/-- A character that shows dots shows the same dots however they are given. -/
theorem Shows.congr {c : Char} {dots dots' : Nat → Nat → Bool} (h : Shows c dots)
    (heq : ∀ x y, x < 2 → y < 4 → dots x y = dots' x y) : Shows c dots' where
  hasDot x y hx hy := (h.hasDot x y hx hy).trans (heq x y hx hy)
  space hdark := h.space fun x y hx hy => (heq x y hx hy).trans (hdark x y hx hy)

/-- The character of a pattern shows its dots. -/
theorem ofPattern_shows (p : BitVec 8) : Shows (ofPattern p) fun x y => p.getLsbD (dot x y) where
  hasDot x y _ _ := hasDot_ofPattern p x y
  space hdark := by
    have hp : p = 0#8 := by
      refine BitVec.eq_of_getLsbD_eq fun k hk => ?_
      obtain ⟨x, y, hx, hy, rfl⟩ := exists_dot hk
      rw [hdark x y hx hy, BitVec.getLsbD_zero]
    rw [ofPattern, if_pos hp]

/-- A character that shows dots is no end of line. -/
theorem Shows.ne_newline {c : Char} {dots : Nat → Nat → Bool} (h : Shows c dots) : c ≠ '\n' := by
  rintro rfl
  have hdark : ∀ x y, x < 2 → y < 4 → dots x y = false := fun x y hx hy =>
    (h.hasDot x y hx hy).symm.trans (Nat.zero_testBit _)
  exact absurd (h.space hdark) (by decide)

end Braille
end Text
end Chip8
