/-
# Numerals, read exactly

A numeral is read digit by digit, with the limit watched at every step.  What comes of
that is what a grammar says that does not read at all:

| | |
| --- | --- |
| digit (`IsDigit`) | the character of a number below the radix, of either case if it is a letter |
| digits (`Writes`) | one after the other, the number that `Nat.ofDigits` makes of them |
| numeral (`IsNumeral`) | a digit or more, after a `+` or not |

A numeral is read exactly if its number is below the limit (`read_eq_ok_iff`): zeros in
front do no harm, since the value stays at zero, and a value that has come to the limit
stays above it, whatever digits follow.  The numerals that are written are among them, in
any width and any case (`isNumeral_hex`, `isNumeral_decimal`, `Writes.of_sameLetter`).
-/

import Chip8.Text.Numeral
import Chip8.Text.Numeral.Reader
import Mathlib.Data.List.Forall2
import Mathlib.Data.Nat.Digits.Defs
import Mathlib.Tactic.Ring

namespace Chip8
namespace Text
namespace Numeral

/-- The character stands for the digit `d`; a letter may be of either case. -/
def IsDigit (radix : Nat) (c : Char) (d : Nat) : Prop :=
  d < radix ∧ (c = Nat.digitChar d ∨ c = (Nat.digitChar d).toUpper)

/-- The characters write `n`, a digit each, the most significant first. -/
def Writes (radix : Nat) (cs : List Char) (n : Nat) : Prop :=
  ∃ ds, List.Forall₂ (IsDigit radix) cs ds ∧ n = Nat.ofDigits radix ds.reverse

/-- The characters are a numeral for `n`: one digit or more, with a `+` in front or not. -/
def IsNumeral (radix : Nat) (cs : List Char) (n : Nat) : Prop :=
  ∃ digits, digits ≠ [] ∧ (cs = digits ∨ cs = '+' :: digits) ∧ Writes radix digits n

/-! ## Digits -/

section Digit

variable {radix d : Nat} {c : Char}

/-- A digit that may be a letter has two characters, and either has its value. -/
theorem alphanumericValue?_digitChar (h : d < 16) :
    alphanumericValue? (Nat.digitChar d) = some d ∧
      alphanumericValue? (Nat.digitChar d).toUpper = some d := by
  have hall : ∀ d < 16, alphanumericValue? (Nat.digitChar d) = some d ∧
      alphanumericValue? (Nat.digitChar d).toUpper = some d := by decide
  exact hall d h

/-- A character is found from the first of its range. -/
theorem eq_ofNat_add {a : Char} (h : a ≤ c) : c = Char.ofNat (a.toNat + (c.toNat - a.toNat)) := by
  have hle : a.toNat ≤ c.toNat := h
  rw [Nat.add_sub_cancel' hle, Char.ofNat_toNat]

/-- No other character has the value of a digit. -/
theorem eq_digitChar_of_alphanumericValue? (h : alphanumericValue? c = some d) (hd : d < 16) :
    c = Nat.digitChar d ∨ c = (Nat.digitChar d).toUpper := by
  have hdecimal : ∀ k < 10, Char.ofNat ('0'.toNat + k) = Nat.digitChar k := by decide
  have hlower : ∀ k < 6, Char.ofNat ('a'.toNat + k) = Nat.digitChar (k + 10) := by decide
  have hupper : ∀ k < 6, Char.ofNat ('A'.toNat + k) = (Nat.digitChar (k + 10)).toUpper := by decide
  unfold alphanumericValue? at h
  split at h
  · rename_i hc
    have hlast : c.toNat ≤ 57 := hc.2
    obtain rfl := Option.some.inj h
    left
    exact (eq_ofNat_add hc.1).trans (hdecimal _ (by simp; omega))
  · split at h
    · rename_i hc
      obtain rfl := Option.some.inj h
      exact .inl ((eq_ofNat_add hc.1).trans (hlower _ (by omega)))
    · split at h
      · rename_i hc
        obtain rfl := Option.some.inj h
        exact .inr ((eq_ofNat_add hc.1).trans (hupper _ (by omega)))
      · cases h

/-- The value of a character is the digit that it stands for. -/
theorem digitValue?_eq_some_iff (hr : radix ≤ 16) :
    digitValue? radix c = some d ↔ IsDigit radix c d := by
  rw [digitValue?, Option.filter_eq_some_iff, decide_eq_true_iff, IsDigit, and_comm]
  refine and_congr_right fun hd => ⟨fun h => ?_, ?_⟩
  · exact eq_digitChar_of_alphanumericValue? h (by omega)
  · have hvalue := alphanumericValue?_digitChar (Nat.lt_of_lt_of_le hd hr)
    rintro (rfl | rfl)
    · exact hvalue.1
    · exact hvalue.2

end Digit

/-! ## Digits one after the other -/

section Writes

variable {radix limit acc n m d : Nat} {c : Char} {cs digits : List Char}

/-- No digits write zero. -/
theorem writes_nil : Writes radix [] n ↔ n = 0 := by
  constructor
  · rintro ⟨ds, hds, rfl⟩
    cases hds
    rfl
  · rintro rfl
    exact ⟨[], .nil, rfl⟩

/-- The first digit has the place value that the number of the others gives to it. -/
theorem writes_cons :
    Writes radix (c :: cs) n ↔
      ∃ d m, IsDigit radix c d ∧ Writes radix cs m ∧ n = d * radix ^ cs.length + m := by
  constructor
  · rintro ⟨_, hall, rfl⟩
    obtain ⟨d, ds, hd, hds, rfl⟩ := List.forall₂_cons_left_iff.1 hall
    refine ⟨d, _, hd, ⟨ds, hds, rfl⟩, ?_⟩
    rw [Nat.ofDigits_reverse_cons, hds.length_eq, Nat.add_comm, Nat.mul_comm]
  · rintro ⟨d, m, hd, ⟨ds, hds, rfl⟩, rfl⟩
    refine ⟨d :: ds, .cons hd hds, ?_⟩
    rw [Nat.ofDigits_reverse_cons, hds.length_eq, Nat.add_comm, Nat.mul_comm]

/-- **Digits are read if their number is below the limit,** after digits for `acc`.  A value
at the limit or above it never comes down again, whatever follows. -/
theorem readDigits_eq_ok_iff (hr : radix ≤ 16) (hradix : 0 < radix) (hacc : acc < limit) :
    readDigits radix limit acc cs = .ok n ↔
      n < limit ∧ ∃ m, Writes radix cs m ∧ n = acc * radix ^ cs.length + m := by
  induction cs generalizing acc with
  | nil =>
    simp only [readDigits, writes_nil, List.length_nil, pow_zero, mul_one, Except.ok.injEq,
      exists_eq_left, Nat.add_zero]
    constructor
    · rintro rfl
      exact ⟨hacc, rfl⟩
    · exact fun h => h.2.symm
  | cons c cs ih =>
    rw [readDigits]
    cases hd : digitValue? radix c with
    | none =>
      simp only [reduceCtorEq, false_iff]
      rintro ⟨-, m, hm, -⟩
      obtain ⟨d, -, hc, -⟩ := writes_cons.1 hm
      rw [(digitValue?_eq_some_iff hr).2 hc] at hd
      cases hd
    | some d =>
      have hnext : (∃ m, Writes radix (c :: cs) m ∧ n = acc * radix ^ (c :: cs).length + m) ↔
          ∃ m, Writes radix cs m ∧ n = (acc * radix + d) * radix ^ cs.length + m := by
        have hsum (m : Nat) : acc * radix ^ (c :: cs).length + (d * radix ^ cs.length + m) =
            (acc * radix + d) * radix ^ cs.length + m := by
          rw [List.length_cons, Nat.pow_succ]
          ring
        constructor
        · rintro ⟨_, hwhole, rfl⟩
          obtain ⟨e, m, hc, hm, rfl⟩ := writes_cons.1 hwhole
          obtain rfl : d = e := Option.some.inj (hd.symm.trans ((digitValue?_eq_some_iff hr).2 hc))
          exact ⟨m, hm, hsum m⟩
        · rintro ⟨m, hm, rfl⟩
          exact ⟨_, writes_cons.2 ⟨d, m, (digitValue?_eq_some_iff hr).1 hd, hm, rfl⟩, (hsum m).symm⟩
      simp only [hnext]
      split
      · rename_i hlt
        exact ih hlt
      · rename_i hge
        simp only [reduceCtorEq, false_iff]
        rintro ⟨hn, m, -, rfl⟩
        have hpow : 1 ≤ radix ^ cs.length := Nat.pow_pos hradix
        have hle : acc * radix + d ≤ (acc * radix + d) * radix ^ cs.length :=
          Nat.le_mul_of_pos_right _ hpow
        omega

/-- A sign is no digit. -/
theorem not_writes_plus (hr : radix ≤ 16) : ¬Writes radix ('+' :: cs) n := by
  intro h
  obtain ⟨d, -, hc, -⟩ := writes_cons.1 h
  have hnone : digitValue? radix '+' = none := rfl
  rw [(digitValue?_eq_some_iff hr).2 hc] at hnone
  cases hnone

/-- After a `+` a numeral goes on with its digits. -/
theorem isNumeral_plus (hr : radix ≤ 16) :
    IsNumeral radix ('+' :: cs) n ↔ cs ≠ [] ∧ Writes radix cs n := by
  constructor
  · rintro ⟨digits, hne, rfl | h, hw⟩
    · exact (not_writes_plus hr hw).elim
    · obtain ⟨-, rfl⟩ := List.cons.inj h
      exact ⟨hne, hw⟩
  · rintro ⟨hne, hw⟩
    exact ⟨cs, hne, .inr rfl, hw⟩

/-- A numeral without a `+` is its digits. -/
theorem isNumeral_of_ne_plus (hcs : ∀ rest, cs ≠ '+' :: rest) :
    IsNumeral radix cs n ↔ cs ≠ [] ∧ Writes radix cs n := by
  constructor
  · rintro ⟨digits, hne, rfl | rfl, hw⟩
    · exact ⟨hne, hw⟩
    · exact (hcs _ rfl).elim
  · rintro ⟨hne, hw⟩
    exact ⟨cs, hne, .inl rfl, hw⟩

/-- A numeral has a digit. -/
theorem IsNumeral.ne_nil_and_ne_plus (hr : radix ≤ 16) (h : IsNumeral radix cs n) :
    cs ≠ [] ∧ cs ≠ ['+'] := by
  constructor
  · rintro rfl
    exact ((isNumeral_of_ne_plus fun _ => (List.cons_ne_nil _ _).symm).1 h).1 rfl
  · rintro rfl
    exact ((isNumeral_plus hr).1 h).1 rfl

/-- Digits are digits, each of them. -/
theorem Writes.exists_isDigit (h : Writes radix cs n) (hc : c ∈ cs) : ∃ d, IsDigit radix c d := by
  induction cs generalizing n with
  | nil => cases hc
  | cons e cs ih =>
    obtain ⟨d, m, he, hm, -⟩ := writes_cons.1 h
    obtain rfl | hc := List.mem_cons.1 hc
    · exact ⟨d, he⟩
    · exact ih hm hc

/-- There is nothing but a sign and digits in a numeral. -/
theorem IsNumeral.plus_or_isDigit (h : IsNumeral radix cs n) (hc : c ∈ cs) :
    c = '+' ∨ ∃ d, IsDigit radix c d := by
  obtain ⟨digits, -, rfl | rfl, hw⟩ := h
  · exact .inr (hw.exists_isDigit hc)
  · obtain rfl | hc := List.mem_cons.1 hc
    · exact .inl rfl
    · exact .inr (hw.exists_isDigit hc)

/-- One digit or more are a numeral. -/
theorem Writes.isNumeral (h : Writes radix cs n) (hne : cs ≠ []) : IsNumeral radix cs n :=
  ⟨cs, hne, .inl rfl, h⟩

/-- **A numeral is read if its number is below the limit.** -/
theorem read_eq_ok_iff {text : String} (hr : radix ≤ 16) (hradix : 0 < radix) (hlimit : 0 < limit) :
    read radix limit text = .ok n ↔ n < limit ∧ IsNumeral radix text.toList n := by
  have hdigits (cs : List Char) :
      readDigits radix limit 0 cs = .ok n ↔ n < limit ∧ Writes radix cs n := by
    rw [readDigits_eq_ok_iff hr hradix hlimit]
    simp only [Nat.zero_mul, Nat.zero_add, exists_eq_right']
  rw [read]
  split
  · rename_i htext
    simp [htext, isNumeral_of_ne_plus]
  · rename_i htext
    simp [htext, isNumeral_plus hr]
  · rename_i cs hsign htext
    have hne : cs ≠ [] := hsign
    rw [htext, isNumeral_plus hr, hdigits, and_iff_right hne]
  · rename_i cs hempty _ hsign
    rw [isNumeral_of_ne_plus fun rest h => hsign rest h, hdigits, and_iff_right hempty]

/-- A numeral has one number: a limit above two of them would let it be read as both. -/
theorem IsNumeral.unique (hr : radix ≤ 16) (hradix : 0 < radix) (hn : IsNumeral radix cs n)
    (hm : IsNumeral radix cs m) : n = m := by
  rw [← String.toList_ofList (l := cs)] at hn hm
  have hreadn : read radix (n + m + 1) (String.ofList cs) = .ok n :=
    (read_eq_ok_iff hr hradix (by omega)).2 ⟨by omega, hn⟩
  have hreadm : read radix (n + m + 1) (String.ofList cs) = .ok m :=
    (read_eq_ok_iff hr hradix (by omega)).2 ⟨by omega, hm⟩
  exact Except.ok.inj (hreadn.symm.trans hreadm)

end Writes

/-! ## Numerals that are written -/

section Written

variable {radix n d : Nat} {c e : Char} {cs ks : List Char}

/-- The characters are the same but for the case of a letter, which the first has upper or
lower and the second has lower. -/
def SameLetter (c e : Char) : Prop := c = e ∨ c = e.toUpper

/-- A letter of the other case stands for the same digit. -/
theorem IsDigit.of_sameLetter (hr : radix ≤ 16) (he : IsDigit radix e d) (h : SameLetter c e) :
    IsDigit radix c d := by
  have htwice : ∀ d < 16, (Nat.digitChar d).toUpper.toUpper = (Nat.digitChar d).toUpper := by decide
  obtain ⟨hd, rfl | rfl⟩ := he
  · exact ⟨hd, h⟩
  · rw [SameLetter, htwice d (Nat.lt_of_lt_of_le hd hr), or_self] at h
    exact ⟨hd, .inr h⟩

/-- The case of the letters does not matter. -/
theorem Writes.of_sameLetter (hr : radix ≤ 16) (hcs : Writes radix cs n)
    (h : List.Forall₂ SameLetter ks cs) : Writes radix ks n := by
  induction h generalizing n with
  | nil => exact hcs
  | cons hc hks ih =>
    obtain ⟨d, m, hd, hm, rfl⟩ := writes_cons.1 hcs
    rw [← hks.length_eq]
    exact writes_cons.2 ⟨d, m, hd.of_sameLetter hr hc, ih hm, rfl⟩

/-- The character of a digit stands for it. -/
theorem isDigit_digitChar (hd : d < radix) : IsDigit radix (Nat.digitChar d) d := ⟨hd, .inl rfl⟩

/-- Zeros in front do not matter. -/
theorem Writes.replicate_append (hradix : 0 < radix) (h : Writes radix cs n) (k : Nat) :
    Writes radix (List.replicate k '0' ++ cs) n := by
  induction k with
  | zero => exact h
  | succ k ih => exact writes_cons.2 ⟨0, n, isDigit_digitChar hradix, ih, by omega⟩

/-- One more digit. -/
theorem Writes.concat (h : Writes radix cs n) (hc : IsDigit radix c d) :
    Writes radix (cs ++ [c]) (d + radix * n) := by
  obtain ⟨ds, hds, rfl⟩ := h
  refine ⟨ds ++ [d], List.rel_append hds (.cons hc .nil), ?_⟩
  rw [List.reverse_concat, Nat.ofDigits_cons]

/-- **A number is what its numeral writes.** -/
theorem Writes.toDigits (hradix : 1 < radix) (n : Nat) : Writes radix (Nat.toDigits radix n) n := by
  induction n using Nat.strongRecOn with
  | ind n ih =>
    by_cases hn : n < radix
    · rw [Nat.toDigits_of_lt_base hn]
      exact writes_cons.2 ⟨n, 0, isDigit_digitChar hn, writes_nil.2 rfl, by simp⟩
    · have hle := Nat.not_lt.1 hn
      have hfirst := ih (n / radix) (Nat.div_lt_self (by omega) hradix)
      have hlast := isDigit_digitChar (Nat.mod_lt n (by omega : 0 < radix))
      rw [Nat.toDigits_of_base_le hradix hle]
      have hconcat := hfirst.concat hlast
      rwa [Nat.mod_add_div] at hconcat

/-- The digits of a hexadecimal numeral write its number, with zeros in front or not. -/
theorem writes_hex (width n : Nat) : Writes 16 (hex width n).toList n := by
  rw [hex, String.toList_ofList]
  exact (Writes.toDigits (by decide) n).replicate_append (by decide) _

/-- The digits of a decimal numeral write its number. -/
theorem writes_decimal (n : Nat) : Writes 10 (decimal n).toList n := by
  rw [decimal, String.toList_ofList]
  exact Writes.toDigits (by decide) n

/-- What is written in hexadecimal is a hexadecimal numeral. -/
theorem isNumeral_hex (width n : Nat) : IsNumeral 16 (hex width n).toList n := by
  refine (writes_hex width n).isNumeral fun h => ?_
  exact hex_ne_empty width n (String.toList_eq_nil_iff.1 h)

/-- What is written in decimal is a decimal numeral. -/
theorem isNumeral_decimal (n : Nat) : IsNumeral 10 (decimal n).toList n := by
  refine (writes_decimal n).isNumeral ?_
  rw [decimal, String.toList_ofList]
  exact Nat.toDigits_ne_nil

end Written

end Numeral
end Text
end Chip8
