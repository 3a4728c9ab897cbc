/-
# Scripted key presses, read exactly

The text of a scripted press is cut at its first `@` into a key and a frame.  A numeral has
no `@` in it, so there is one way only to cut a text that is good, and what is read is
what the grammar says:

| part | is |
| --- | --- |
| key | a hexadecimal numeral |
| `@` | once |
| frame | a decimal numeral |

Both numbers have to be below `2 ^ 64`; there is no bound on the length of a numeral, so
zeros may stand in front of any key.  Every other text is refused, with a flaw that shows
at once (`Flawed`) or without one, as a sign behind a digit.
-/

import Chip8.KeyPress
import Chip8.Proofs.NumeralText

namespace Chip8
namespace KeyPress

open Text.Numeral (IsDigit IsNumeral SameLetter Writes)

variable {text : String} {press : KeyPress}

/-- The text is that of a press: a hexadecimal numeral for the key, an `@` and a decimal
numeral for the frame. -/
def IsText (text : String) (press : KeyPress) : Prop :=
  ∃ k f, text.toList = k ++ '@' :: f ∧ IsNumeral 16 k press.key ∧ IsNumeral 10 f press.frame

/-- There is room for both numbers of a press. -/
def Fits (press : KeyPress) : Prop := press.key < UInt64.size ∧ press.frame < UInt64.size

/-- What a text can have that the text of a press has not. -/
inductive Flawed (text : String) : Prop where
  /-- There is no `@`, or more than one. -/
  | separators (h : text.toList.count '@' ≠ 1)
  /-- There is a character that is neither `@` nor `+` nor a digit. -/
  | character (c : Char) (h : c ∈ text.toList) (hat : c ≠ '@') (hplus : c ≠ '+')
    (hdigit : ∀ d, ¬IsDigit 16 c d)
  /-- The key or the frame is empty, or is nothing but a sign. -/
  | part (k f : List Char) (h : text.toList = k ++ '@' :: f)
    (hpart : k = [] ∨ k = ['+'] ∨ f = [] ∨ f = ['+'])
  /-- A number is too large. -/
  | number (press : KeyPress) (h : IsText text press) (hlarge : ¬press.Fits)

/-- A numeral has no `@`. -/
theorem notMem_at_of_isNumeral {radix n : Nat} {cs : List Char} (hr : radix ≤ 16)
    (h : IsNumeral radix cs n) : '@' ∉ cs := by
  intro hat
  obtain hplus | ⟨d, hd⟩ := h.plus_or_isDigit hat
  · cases hplus
  · have hnone : Text.Numeral.digitValue? radix '@' = none := rfl
    rw [(Text.Numeral.digitValue?_eq_some_iff hr).2 hd] at hnone
    cases hnone

/-- **A text is read as the press that it is the text of,** if there is room for it. -/
theorem read_eq_ok_iff : read text = .ok press ↔ IsText text press ∧ press.Fits := by
  have hkey (k : List Char) (n : Nat) : Text.Numeral.read 16 UInt64.size (String.ofList k) = .ok n ↔
      n < UInt64.size ∧ IsNumeral 16 k n := by
    rw [Text.Numeral.read_eq_ok_iff (by decide) (by decide) (by decide), String.toList_ofList]
  have hframe (f : List Char) (n : Nat) : Text.Numeral.readDecimal (String.ofList f) = .ok n ↔
      n < UInt64.size ∧ IsNumeral 10 f n := by
    rw [Text.Numeral.readDecimal, Text.Numeral.read_eq_ok_iff (by decide) (by decide) (by decide),
      String.toList_ofList]
  constructor
  · intro h
    rw [read] at h
    split at h
    · cases h
    · rename_i k f hcut
      split at h
      · cases h
      · rename_i key hk
        split at h
        · cases h
        · rename_i frame hf
          obtain rfl := Except.ok.inj h
          obtain ⟨hksize, hkey⟩ := (hkey k key).1 hk
          obtain ⟨hfsize, hframe⟩ := (hframe f frame).1 hf
          exact ⟨⟨k, f, (split?_eq_some_iff.1 hcut).1, hkey, hframe⟩, hksize, hfsize⟩
  · rintro ⟨⟨k, f, htext, hk, hf⟩, hksize, hfsize⟩
    have hcut : split? text.toList = some (k, f) :=
      split?_eq_some_iff.2 ⟨htext, notMem_at_of_isNumeral (by decide) hk⟩
    simp only [read, hcut, (hkey k _).2 ⟨hksize, hk⟩, (hframe f _).2 ⟨hfsize, hf⟩]

/-- What is not read is refused. -/
theorem exists_read_eq_error_iff :
    (∃ why, read text = .error why) ↔ ¬∃ press, IsText text press ∧ press.Fits := by
  simp only [← read_eq_ok_iff]
  cases read text with
  | ok press => simp
  | error why => simp

/-- There is one `@` in the text of a press. -/
theorem IsText.count_at (h : IsText text press) : text.toList.count '@' = 1 := by
  obtain ⟨k, f, htext, hk, hf⟩ := h
  rw [htext, List.count_append, List.count_cons_self,
    List.count_eq_zero.2 (notMem_at_of_isNumeral (by decide) hk),
    List.count_eq_zero.2 (notMem_at_of_isNumeral (by decide) hf)]

/-- Wherever an `@` is found in the text of a press, it is the one between its parts. -/
theorem IsText.parts (h : IsText text press) {k f : List Char} (htext : text.toList = k ++ '@' :: f) :
    IsNumeral 16 k press.key ∧ IsNumeral 10 f press.frame := by
  have hat : '@' ∉ k := by
    have hcount := h.count_at
    rw [htext, List.count_append, List.count_cons_self] at hcount
    exact List.count_eq_zero.1 (by omega)
  obtain ⟨key, frame, htext', hk, hf⟩ := h
  have hcut := split?_eq_some_iff.2 ⟨htext', notMem_at_of_isNumeral (by decide) hk⟩
  rw [split?_eq_some_iff.2 ⟨htext, hat⟩] at hcut
  cases hcut
  exact ⟨hk, hf⟩

/-- A text is the text of one press. -/
theorem IsText.unique {other : KeyPress} (h : IsText text press) (ho : IsText text other) :
    press = other := by
  obtain ⟨k, f, htext, hk, hf⟩ := ho
  obtain ⟨hkey, hframe⟩ := h.parts htext
  have hkeys : press.key = other.key := hkey.unique (by decide) (by decide) hk
  have hframes : press.frame = other.frame := hframe.unique (by decide) (by decide) hf
  rcases press with ⟨_, _⟩
  rcases other with ⟨_, _⟩
  simp_all

/-- **A text with a flaw is the text of no press** that there is room for. -/
theorem Flawed.not_isText (h : Flawed text) : ¬(IsText text press ∧ press.Fits) := by
  rintro ⟨htext, hfits⟩
  cases h with
  | separators h => exact h htext.count_at
  | character c hc hat hplus hdigit =>
    obtain ⟨k, f, hparts, hk, hf⟩ := htext
    rw [hparts, List.mem_append, List.mem_cons] at hc
    obtain hc | hc | hc := hc
    · obtain hc | ⟨d, hd⟩ := hk.plus_or_isDigit hc
      · exact hplus hc
      · exact hdigit d hd
    · exact hat hc
    · obtain hc | ⟨d, hd⟩ := hf.plus_or_isDigit hc
      · exact hplus hc
      · exact hdigit d ⟨Nat.lt_trans hd.1 (by decide), hd.2⟩
  | part k f h hpart =>
    obtain ⟨hk, hf⟩ := htext.parts h
    obtain ⟨hk₁, hk₂⟩ := hk.ne_nil_and_ne_plus (by decide)
    obtain ⟨hf₁, hf₂⟩ := hf.ne_nil_and_ne_plus (by decide)
    obtain hpart | hpart | hpart | hpart := hpart
    · exact hk₁ hpart
    · exact hk₂ hpart
    · exact hf₁ hpart
    · exact hf₂ hpart
  | number other h hlarge => exact hlarge (htext.unique h ▸ hfits)

/-- **A press is what its text says,** whatever the width of the key and the case of its
letters. -/
theorem isText_append (press : KeyPress) {k : List Char} {width : Nat}
    (h : List.Forall₂ SameLetter k (Text.hex width press.key).toList) :
    IsText (String.ofList k ++ "@" ++ Text.decimal press.frame) press := by
  have hkey : Writes 16 k press.key :=
    (Text.Numeral.writes_hex width press.key).of_sameLetter (by decide) h
  have hk : k ≠ [] := by
    rintro rfl
    have hnil := List.forall₂_nil_left_iff.1 h
    exact Text.hex_ne_empty width press.key (String.toList_eq_nil_iff.1 hnil)
  have hat : "@".toList = ['@'] := rfl
  refine ⟨k, (Text.decimal press.frame).toList, ?_, hkey.isNumeral hk,
    Text.Numeral.isNumeral_decimal press.frame⟩
  rw [String.toList_append, String.toList_append, hat, String.toList_ofList, List.append_assoc,
    List.singleton_append]

/-- **Scripted presses are read by their grammar.**  A text is read as a press exactly if it
is the text of that press and the press fits into 64 bits; every other text is refused.
Refused is, among others, a text without an `@` or with two of them, with an empty part
or a part that is a sign, with a character that is none of `@`, `+` and the digits, or
with a number of `2 ^ 64` or more.  A key that is written in hexadecimal, with zeros in
front and letters of either case, and a frame in decimal are read back. -/
theorem scripted_press_grammar :
    (∀ text press, read text = .ok press ↔ IsText text press ∧ press.Fits) ∧
      (∀ text, (∃ why, read text = .error why) ↔ ¬∃ press, IsText text press ∧ press.Fits) ∧
      (∀ text, Flawed text → ∃ why, read text = .error why) ∧
      ∀ key frame width k, key < UInt64.size → frame < UInt64.size →
        List.Forall₂ SameLetter k (Text.hex width key).toList →
        read (String.ofList k ++ "@" ++ Text.decimal frame) = .ok ⟨key, frame⟩ := by
  refine ⟨fun _ _ => read_eq_ok_iff, fun _ => exists_read_eq_error_iff, fun text h => ?_,
    fun key frame width k hkey hframe hk => ?_⟩
  · exact exists_read_eq_error_iff.2 fun ⟨_, hpress⟩ => h.not_isText hpress
  · exact read_eq_ok_iff.2 ⟨isText_append ⟨key, frame⟩ hk, hkey, hframe⟩

/-- A key of four digits, one of them a capital, is read back; a second `@` is refused. -/
theorem scripted_press_grammar_mixedCase :
    read "00aF@30" = .ok ⟨0xAF, 30⟩ ∧ ∃ why, read "a@3@0" = .error why := by
  obtain ⟨-, -, hflawed, hwritten⟩ := scripted_press_grammar
  have hkey : List.Forall₂ SameLetter ['0', '0', 'a', 'F'] ['0', '0', 'a', 'f'] :=
    .cons (.inl rfl) (.cons (.inl rfl) (.cons (.inl rfl) (.cons (.inr (by decide)) .nil)))
  have hread := hwritten 0xAF 30 4 ['0', '0', 'a', 'F'] (by decide) (by decide) hkey
  exact ⟨hread, hflawed _ (.separators (by decide))⟩

end KeyPress
end Chip8
