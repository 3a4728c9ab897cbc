/-
# Listings, taken apart and read back

A listing goes through a program two bytes at a time and counts addresses beside them.
Bytes and addresses stay in step, so a listing can be taken apart wherever a word ends:

| listing of | is |
| --- | --- |
| a program from an offset on | the listing of what is left of it, at its address |
| two parts, the first of whole words from the offset on | the listings of the parts, one after the other |

This needs an offset within the program, where every address has room.  An offset beyond
its end makes the listing empty, unless the address there has no room; then the listing is
not made (`empty_listing_not_made`).

It loses nothing but a single byte left over at the end.  Every line ends with the four
digits of its word, whatever its text is, and these digits one after the other are the
digits of the program's bytes (`flatMap_wordDigits`).
-/

import Chip8.Proofs.ListedProgram

namespace Chip8
namespace Listing

/-- The last four characters of a line, its colours removed. -/
def wordDigits (line : String) : List Char :=
  let chars := (Text.stripControls line).toList
  chars.drop (chars.length - 4)

/-- **A line ends with its word.** -/
theorem wordDigits_shown (l : Line) : wordDigits l.shown = (Text.hex 4 l.word.toNat).toList := by
  have hlength : (Text.hex 4 l.word.toNat).toList.length = 4 := by
    rw [toList_hex_word]
    rfl
  have hshown : (Text.stripControls l.shown).toList =
      (Text.hex 3 l.address ++ ": ").toList ++ (Word.assemblySpan l.word).text.toList ++ [' '] ++
        (Text.hex 4 l.word.toNat).toList := by
    simp [l.toList_stripControls_shown]
  rw [wordDigits, hshown, List.length_append, hlength, Nat.add_sub_cancel, List.drop_left]

/-- The digits of a word are those of its two bytes. -/
theorem toList_hex_ofBytes (high low : UInt8) :
    (Text.hex 4 (Word.ofBytes high low).toNat).toList =
      (Text.hex 2 high.toNat).toList ++ (Text.hex 2 low.toNat).toList := by
  have hhigh := high.toNat_lt
  have hlow := low.toNat_lt
  have hdigits : (256 * high.toNat + low.toNat) / 4096 % 16 = high.toNat / 16 ∧
      (256 * high.toNat + low.toNat) / 256 % 16 = high.toNat % 16 ∧
      (256 * high.toNat + low.toNat) / 16 % 16 = low.toNat / 16 ∧
      (256 * high.toNat + low.toNat) % 16 = low.toNat % 16 := by omega
  obtain ⟨h₁, h₂, h₃, h₄⟩ := hdigits
  rw [toList_hex_word, Word.toNat_ofBytes, h₁, h₂, h₃, h₄, Text.toList_hex_byte,
    Text.toList_hex_byte]
  rfl

/-- **The words of a listing are the bytes of the program,** but for a single byte left
over. -/
theorem flatMap_wordDigits (address : Nat) (bytes : List UInt8) :
    ((ofBytes address bytes).map Line.shown).flatMap wordDigits =
      (Text.hexBytes (bytes.take (2 * (bytes.length / 2)))).toList := by
  rw [Text.toList_hexBytes]
  induction address, bytes using ofBytes.induct with
  | case1 address high low rest ih =>
    have hlength : 2 * ((high :: low :: rest).length / 2) = 2 * (rest.length / 2) + 1 + 1 := by
      simp only [List.length_cons]
      omega
    rw [ofBytes, List.map_cons, List.flatMap_cons, ih, wordDigits_shown, toList_hex_ofBytes,
      hlength, List.take_succ_cons, List.take_succ_cons, List.flatMap_cons, List.flatMap_cons,
      List.append_assoc]
  | case2 bytes address h =>
    rcases bytes with _ | ⟨high, _ | ⟨low, rest⟩⟩
    · rfl
    · simp [ofBytes]
    · exact (h high low rest rfl).elim

/-- The text of a listing has its lines and no others. -/
theorem lines_text_ofProgram (program : List UInt8) (loadAddress offset : Nat) :
    Text.lines (text (ofProgram program loadAddress offset)) =
      (ofProgram program loadAddress offset).map Line.shown := lines_text _

/-- What is left of a program is listed at its address. -/
theorem ofProgram_drop (program : List UInt8) (loadAddress offset : Nat) :
    ofProgram (program.drop offset) (loadAddress + offset) 0 =
      ofProgram program loadAddress offset := rfl

/-- **A program is listed part by part,** if the first part ends where a word does. -/
theorem ofProgram_append {first : List UInt8} {offset : Nat} (hoffset : offset ≤ first.length)
    (hwords : (first.length - offset) % 2 = 0) (second : List UInt8) (loadAddress : Nat) :
    ofProgram (first ++ second) loadAddress offset =
      ofProgram first loadAddress offset ++ ofProgram second (loadAddress + first.length) 0 := by
  have haddress : loadAddress + offset + (first.drop offset).length =
      loadAddress + first.length + 0 := by
    rw [List.length_drop]
    omega
  have hwhole : (first.drop offset).length % 2 = 0 := by
    rw [List.length_drop]
    exact hwords
  rw [ofProgram, List.drop_append_of_le_length hoffset, ofBytes_append _ _ _ hwhole, haddress]
  rfl

section Parts

variable {program : List UInt8} {loadAddress offset : Nat}

/-- From an offset within a program on, every address of the program has room. -/
theorem disassemble_of_le_length (hoffset : offset ≤ program.length)
    (hend : loadAddress + program.length < UInt64.size) :
    disassemble program loadAddress offset = .ok (text (ofProgram program loadAddress offset)) :=
  disassemble_eq (by omega) (Nat.le_of_lt hend)

/-- **A listing shows the words from its offset on,** each with its address. -/
theorem getElem?_lines_ofProgram {k : Nat} (hk : k < (program.length - offset) / 2) :
    ∃ high low line, program[offset + 2 * k]? = some high ∧
      program[offset + 2 * k + 1]? = some low ∧
      (Text.lines (text (ofProgram program loadAddress offset)))[k]? = some line ∧
      (Text.hex 3 (loadAddress + offset + 2 * k) ++ ": ").toList <+: line.toList ∧
      wordDigits line = (Text.hex 4 (256 * high.toNat + low.toNat)).toList := by
  have hlow : offset + 2 * k + 1 < program.length := by omega
  have hhigh : offset + 2 * k < program.length := by omega
  let line : Line := ⟨loadAddress + offset + 2 * k,
    Word.ofBytes program[offset + 2 * k] program[offset + 2 * k + 1]⟩
  refine ⟨_, _, line.shown, List.getElem?_eq_getElem hhigh, List.getElem?_eq_getElem hlow,
    ?_, ?_, ?_⟩
  · rw [lines_text_ofProgram, List.getElem?_map, getElem?_ofProgram, dif_pos hlow,
      Option.map_some]
  · rw [Line.shown]
    simp only [String.toList_append, List.append_assoc]
    exact ⟨_, List.append_assoc ..⟩
  · rw [wordDigits_shown, Word.toNat_ofBytes]

/-- A program in two parts is listed in two parts. -/
theorem disassemble_append {first second : List UInt8}
    (hend : loadAddress + (first ++ second).length < UInt64.size)
    (hoffset : offset ≤ first.length) (hwords : (first.length - offset) % 2 = 0) :
    disassemble (first ++ second) loadAddress offset = do
      return (← disassemble first loadAddress offset) ++
        (← disassemble second (loadAddress + first.length) 0) := by
  rw [List.length_append] at hend
  have hwhole : offset ≤ (first ++ second).length := by
    rw [List.length_append]
    omega
  rw [disassemble_of_le_length hwhole (by rw [List.length_append]; exact hend),
    disassemble_of_le_length hoffset (by omega),
    disassemble_of_le_length (Nat.zero_le _) (by omega), ofProgram_append hoffset hwords,
    text_append]
  rfl

end Parts

/-- **The listing of a program is one of its bytes.**  Take any program, of a length that a
program can have, and any load address of 16 bits.

* If the first address has room, the listing is made.  It has a line for each word from the
  offset on, and none if there is nothing there.  Line `k` begins with the address of its
  word in at least three digits, and ends with the word in four; read one after the other,
  the words give back the program from the offset on, but for a single byte left over.
* Otherwise the listing is not made, although there is nothing to list.
* From an offset within the program on, the listing is that of what is left of the program
  there, at its address; and that of a program in two parts is that of the first and then
  that of the second, if the first consists of whole words from the offset on. -/
theorem listing_of_parts {program : List UInt8} (hlength : program.length < 0x8000000000000000)
    {loadAddress : Nat} (hload : loadAddress < UInt16.size) (offset : Nat) :
    (loadAddress + offset < UInt64.size → ∃ listing,
      disassemble program loadAddress offset = .ok listing ∧
        (Text.lines listing).length = (program.length - offset) / 2 ∧
        (program.length ≤ offset → listing = "") ∧
        (∀ k, k < (program.length - offset) / 2 → ∃ high low line,
          program[offset + 2 * k]? = some high ∧ program[offset + 2 * k + 1]? = some low ∧
            (Text.lines listing)[k]? = some line ∧
            (Text.hex 3 (loadAddress + offset + 2 * k) ++ ": ").toList <+: line.toList ∧
            wordDigits line = (Text.hex 4 (256 * high.toNat + low.toNat)).toList) ∧
        Text.bytesOfHex ((Text.lines listing).flatMap wordDigits) =
          (program.drop offset).take (2 * ((program.length - offset) / 2))) ∧
      (UInt64.size ≤ loadAddress + offset →
        program.length ≤ offset ∧ disassemble program loadAddress offset = .error .sum) ∧
      (offset ≤ program.length → disassemble program loadAddress offset =
        disassemble (program.drop offset) (loadAddress + offset) 0) ∧
      ∀ first second, program = first ++ second → offset ≤ first.length →
        (first.length - offset) % 2 = 0 →
        disassemble program loadAddress offset = do
          return (← disassemble first loadAddress offset) ++
            (← disassemble second (loadAddress + first.length) 0) := by
  have hend : loadAddress + program.length < UInt64.size := by
    simp only [UInt64.size, UInt16.size] at hload ⊢
    omega
  refine ⟨fun hsum => ⟨_, disassemble_eq hsum (Nat.le_of_lt hend), ?_, fun hnone => ?_,
      fun k hk => getElem?_lines_ofProgram hk, ?_⟩,
    fun hlarge => ⟨by omega, disassemble_of_le hlarge⟩, fun hoffset => ?_, ?_⟩
  · rw [lines_text_ofProgram, List.length_map, ofProgram, length_ofBytes, List.length_drop]
  · rw [ofProgram_eq_nil hnone]
    rfl
  · rw [lines_text_ofProgram, ofProgram, flatMap_wordDigits, Text.bytesOfHex_hexBytes,
      List.length_drop]
  · have hleft : loadAddress + offset + (program.drop offset).length < UInt64.size := by
      rw [List.length_drop]
      omega
    rw [disassemble_of_le_length hoffset hend, disassemble_of_le_length (Nat.zero_le _) hleft,
      ofProgram_drop]
  · rintro first second rfl hoffset hwords
    exact disassemble_append hend hoffset hwords

/-- Seven bytes, listed from the third on for the end of memory: two words in two parts,
and the last byte is left over. -/
theorem listing_of_parts_atEndOfMemory :
    let first : List UInt8 := [0x00, 0xE0, 0x60, 0x05]
    let second : List UInt8 := [0x12, 0x00, 0xFF]
    (first ++ second).length < 0x8000000000000000 ∧ 0xFFC < UInt16.size ∧
      2 ≤ first.length ∧ (first.length - 2) % 2 = 0 ∧
      (∃ listing, disassemble (first ++ second) 0xFFC 2 = .ok listing ∧
        (Text.lines listing).length = 2 ∧
        Text.bytesOfHex ((Text.lines listing).flatMap wordDigits) = [0x60, 0x05, 0x12, 0x00] ∧
        ∃ line, (Text.lines listing)[1]? = some line ∧
          (Text.hex 3 0x1000 ++ ": ").toList <+: line.toList) ∧
      disassemble (first ++ second) 0xFFC 0xFFFFFFFFFFFFF004 = .error .sum ∧
      disassemble (first ++ second) 0xFFC 2 = do
        return (← disassemble first 0xFFC 2) ++ (← disassemble second 0x1000 0) := by
  intro first second
  have hlength : (first ++ second).length < 0x8000000000000000 := by decide
  have hload : 0xFFC < UInt16.size := by decide
  obtain ⟨hlisted, -, -, hparts⟩ := listing_of_parts hlength hload 2
  obtain ⟨-, hstopped, -, -⟩ := listing_of_parts hlength hload 0xFFFFFFFFFFFFF004
  obtain ⟨listing, hmade, hcount, -, hline, hbytes⟩ := hlisted (by decide)
  obtain ⟨-, -, line, -, -, hsecond, haddress, -⟩ := hline 1 (by decide)
  exact ⟨hlength, hload, by decide, by decide,
    ⟨listing, hmade, hcount.trans (by decide), hbytes.trans (by decide), line, hsecond, haddress⟩,
    (hstopped (by decide)).2, hparts first second rfl (by decide) (by decide)⟩

/-- **A listing that would be empty is not always made:** at the load address that is meant if
none is given, there is none from the first offset on whose address has no room. -/
theorem empty_listing_not_made :
    disassemble [0x00, 0xE0] 0x200 18446744073709551104 = .error .sum ∧
      ¬∀ (program : List UInt8) (loadAddress offset : Nat),
        program.length < 0x8000000000000000 → loadAddress < UInt16.size →
          offset < UInt64.size → program.length ≤ offset →
          disassemble program loadAddress offset = .ok "" := by
  have hstopped : disassemble [0x00, 0xE0] 0x200 18446744073709551104 = .error .sum :=
    disassemble_of_le (by decide)
  refine ⟨hstopped, fun h => ?_⟩
  have hempty := h [0x00, 0xE0] 0x200 18446744073709551104 (by decide) (by decide) (by decide)
    (by decide)
  rw [hstopped] at hempty
  cases hempty

end Listing
end Chip8
