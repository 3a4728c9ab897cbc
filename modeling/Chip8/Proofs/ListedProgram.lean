/-
# The listing shows what the machine fetches

A listing is made from a program as it lies in its file: from an offset on, two bytes
make a word, and a single byte left over makes none.  A machine loads the program and
takes a word where its program counter points.  The two never meet, but tell the same
about every word:

| in line `k` of the listing from offset `o` | on the machine |
| --- | --- |
| the line exists | both bytes `o + 2k` and `o + 2k + 1` are in the program |
| the address | `p = 0x200 + o + 2k` |
| the word and its text | what is fetched at `p` |
| the text is `inval` | a tick at `p` fails with an illegal instruction |

The listing is one text.  Its lines can be read back, since nothing that a line shows
has an end of line in it (`lines_text`).
-/

import Chip8.Listing
import Chip8.Machine.Host
import Chip8.Proofs.Disassembly
import Chip8.Proofs.Faults
import Chip8.Proofs.HexText
import Chip8.Proofs.TextLines

namespace Chip8

/-! ## Texts without an end of line -/

namespace Text

/-- A numeral neither begins a control sequence nor breaks a line. -/
theorem notMem_hex {c : Char} (hc : Breaks c) (width n : Nat) : c ∉ (hex width n).toList := by
  have hdigit : isHexDigit c = false := by
    rcases hc with rfl | rfl
    · decide
    · decide
  exact notMem_hex_of_isHexDigit hdigit width n

/-- No style has an end of line in it. -/
theorem newline_notMem_render {s : Span} (h : '\n' ∉ s.text.toList) : '\n' ∉ s.render.toList := by
  rcases s with ⟨style, text⟩
  cases style with
  | none => exact h
  | some style =>
    have hstart : '\n' ∉ style.start.toList := by cases style <;> decide
    have hstop : '\n' ∉ style.stop.toList := by cases style <;> decide
    simp only [Span.render, String.toList_append, List.mem_append, not_or]
    exact ⟨⟨hstart, h⟩, hstop⟩

end Text

namespace Line

/-- What a line shows: its address, the coloured text of its word, and the word. -/
def shown (l : Line) : String :=
  Text.hex 3 l.address ++ ": " ++ Word.disassemble l.word ++ " " ++
    (Text.Span.styled .faint (Text.hex 4 l.word.toNat)).render

/-- The spans of a line without its end. -/
def body (l : Line) : List Text.Span :=
  [.ofText (Text.hex 3 l.address ++ ": "), Word.assemblySpan l.word, .ofText " ",
    .styled .faint (Text.hex 4 l.word.toNat)]

/-- A line shows what its spans are sent as. -/
theorem render_body (l : Line) : Text.render l.body = l.shown := by
  refine String.toList_inj.1 ?_
  simp [Text.render, body, shown, Word.disassemble, Text.Span.ofText, Text.Span.render]

/-- A line ends with a newline. -/
theorem toList_render_spans (l : Line) :
    (Text.render l.spans).toList = l.shown.toList ++ ['\n'] := by
  have hspans : l.spans = l.body ++ [.ofText "\n"] := rfl
  rw [hspans, Text.render_append, render_body, String.toList_append]
  rfl

/-- No text within a line begins a control sequence or breaks the line. -/
theorem notMem_body (l : Line) {c : Char} (hc : Text.Breaks c) :
    ∀ s ∈ l.body, c ∉ s.text.toList := by
  have hcolon : c ∉ ": ".toList := by
    rcases hc with rfl | rfl
    · decide
    · decide
  have hspace : c ∉ " ".toList := by
    rcases hc with rfl | rfl
    · decide
    · decide
  have haddress : c ∉ (Text.hex 3 l.address ++ ": ").toList := by
    rw [String.toList_append, List.mem_append, not_or]
    exact ⟨Text.notMem_hex hc 3 l.address, hcolon⟩
  simp only [body, List.forall_mem_cons, List.not_mem_nil, false_implies, implies_true, and_true]
  exact ⟨haddress, Word.notMem_text hc l.word, hspace, Text.notMem_hex hc 4 _⟩

/-- What a line shows is on one line. -/
theorem newline_notMem_shown (l : Line) : '\n' ∉ l.shown.toList := by
  rw [← render_body, Text.render, String.toList_join, List.mem_flatMap]
  rintro ⟨_, hmem, hn⟩
  rcases List.mem_map.1 hmem with ⟨s, hs, rfl⟩
  exact Text.newline_notMem_render (l.notMem_body (.inr rfl) s hs) hn

/-- **Without its colours a line shows the text of its word.** -/
theorem toList_stripControls_shown (l : Line) :
    (Text.stripControls l.shown).toList =
      (Text.hex 3 l.address ++ ": ").toList ++
        ((Word.assemblySpan l.word).text.toList ++ (" " ++ Text.hex 4 l.word.toNat).toList) := by
  rw [← render_body, Text.stripControls_render (l.notMem_body (.inl rfl))]
  simp [Text.plain, body, Text.Span.ofText, Text.Span.styled]

end Line

/-! ## The lines of a listing -/

namespace Listing

/-- **The lines of a listing's text are what its lines show.** -/
theorem lines_text (ls : List Line) : Text.lines (text ls) = ls.map Line.shown := by
  refine Text.lines_eq ?_ ?_
  · intro shown hmem
    rcases List.mem_map.1 hmem with ⟨l, -, rfl⟩
    exact l.newline_notMem_shown
  · induction ls with
    | nil => rfl
    | cons l ls ih =>
      have hcons : text (l :: ls) = Text.render l.spans ++ text ls :=
        Text.render_append l.spans (ls.flatMap Line.spans)
      rw [hcons, String.toList_append, l.toList_render_spans, ih]
      rfl

/-- **Line `k` is made of the bytes `2k` and `2k + 1`,** if both are there. -/
theorem getElem?_ofBytes (bytes : List UInt8) (address k : Nat) :
    (ofBytes address bytes)[k]? =
      if h : 2 * k + 1 < bytes.length then
        some ⟨address + 2 * k, Word.ofBytes bytes[2 * k] bytes[2 * k + 1]⟩
      else none := by
  induction address, bytes using ofBytes.induct generalizing k with
  | case1 address high low rest ih =>
    cases k with
    | zero => rfl
    | succ k =>
      rw [ofBytes, List.getElem?_cons_succ, ih]
      by_cases hk : 2 * k + 1 < rest.length
      · have hsucc : 2 * (k + 1) + 1 < (high :: low :: rest).length := by
          simp only [List.length_cons]
          omega
        have haddress : address + 2 + 2 * k = address + 2 * (k + 1) := by omega
        rw [dif_pos hk, dif_pos hsucc, haddress]
        rfl
      · have hsucc : ¬2 * (k + 1) + 1 < (high :: low :: rest).length := by
          simp only [List.length_cons]
          omega
        rw [dif_neg hk, dif_neg hsucc]
  | case2 bytes address h =>
    have hshort : bytes.length < 2 := by
      rcases bytes with _ | ⟨high, _ | ⟨low, rest⟩⟩
      · exact Nat.zero_lt_two
      · exact Nat.one_lt_two
      · exact (h high low rest rfl).elim
    have hlength : (ofBytes address bytes).length = 0 := by
      rw [length_ofBytes]
      omega
    have hk : ¬2 * k + 1 < bytes.length := by omega
    rw [List.getElem?_eq_none (by omega), dif_neg hk]

/-- **Line `k` of a program's listing shows the word `2k` bytes after the offset.** -/
theorem getElem?_ofProgram (program : List UInt8) (loadAddress offset k : Nat) :
    (ofProgram program loadAddress offset)[k]? =
      if h : offset + 2 * k + 1 < program.length then
        some ⟨loadAddress + offset + 2 * k,
          Word.ofBytes program[offset + 2 * k] program[offset + 2 * k + 1]⟩
      else none := by
  rw [ofProgram, getElem?_ofBytes]
  by_cases hk : offset + 2 * k + 1 < program.length
  · have hdrop : 2 * k + 1 < (program.drop offset).length := by
      rw [List.length_drop]
      omega
    rw [dif_pos hdrop, dif_pos hk, List.getElem_drop, List.getElem_drop]
    rfl
  · have hdrop : ¬2 * k + 1 < (program.drop offset).length := by
      rw [List.length_drop]
      omega
    rw [dif_neg hdrop, dif_neg hk]

/-- The line of an address shows a word that is no instruction. -/
def ShowsInvalid (address : Nat) (line : String) : Prop :=
  (Text.hex 3 address ++ ": inval").toList <+: (Text.stripControls line).toList

/-- No mnemonic begins as the text of a word that is no instruction does. -/
theorem inval_not_isPrefix_mnemonic (i : Instr) :
    ¬"inval".toList <+: (Text.padRight Instr.mnemonicWidth i.mnemonic).toList := by
  cases i with
  | skip t => cases t <;> simp only [Instr.mnemonic, Test.mnemonic] <;> decide
  | alu op x y => cases op <;> simp only [Instr.mnemonic, AluOp.mnemonic] <;> decide
  | _ => simp only [Instr.mnemonic]; decide

/-- **The text of a word begins with `inval` if it is no instruction,** and only then.  Any
other mnemonic is filled up, so it reaches at least as far as this one. -/
theorem inval_isPrefix_text_iff (w : UInt16) (rest : List Char) :
    "inval".toList <+: (Word.assemblySpan w).text.toList ++ rest ↔ Instr.decode w = none := by
  constructor
  · intro h
    cases hd : Instr.decode w with
    | none => rfl
    | some i =>
      have htext : (Word.assemblySpan w).text.toList = i.assembly.toList := by
        rw [Word.assemblySpan, hd]
        rfl
      rw [htext, Instr.assembly, String.toList_append, List.append_assoc] at h
      have hlength : "inval".toList.length ≤
          (Text.padRight Instr.mnemonicWidth i.mnemonic).toList.length := by
        rw [String.length_toList]
        exact Nat.le_trans (by decide) (Text.le_length_padRight Instr.mnemonicWidth i.mnemonic)
      exact absurd (List.prefix_of_prefix_length_le h (List.prefix_append _ _) hlength)
        (inval_not_isPrefix_mnemonic i)
  · intro hd
    have htext : (Word.assemblySpan w).text.toList =
        "inval".toList ++ ("  ".toList ++ (Text.hex 4 w.toNat).toList) := by
      rw [Word.assemblySpan, hd]
      simp [Text.Span.styled, Text.toList_padRight, Instr.mnemonicWidth]
    rw [htext, List.append_assoc]
    exact List.prefix_append _ _

/-- A line shows `inval` exactly for a word that is no instruction. -/
theorem showsInvalid_iff (l : Line) :
    ShowsInvalid l.address l.shown ↔ Instr.decode l.word = none := by
  have hmark : (Text.hex 3 l.address ++ ": inval").toList =
      (Text.hex 3 l.address ++ ": ").toList ++ "inval".toList := by
    simp
  rw [ShowsInvalid, hmark, l.toList_stripControls_shown, List.prefix_append_right_inj,
    inval_isPrefix_text_iff]

end Listing

/-! ## The program in memory -/

/-- **Two bytes of a program that lies in memory are fetched as their word.** -/
theorem Memory.fetch_place (m : Memory) {program : List UInt8} {start j : Nat} {a : UInt16}
    (hend : start + program.length ≤ 4096) (hj : j + 1 < program.length)
    (ha : a.toNat = start + j) :
    (m.place start program).fetch a = some (Word.ofBytes program[j] program[j + 1]) := by
  have hbyte (i : Nat) (hi : i < program.length) (hmem : start + i < 4096) :
      (m.place start program).bytes[start + i] = program[i] := by
    rw [getElem_place, dif_pos ⟨Nat.le_add_right _ _, Nat.add_lt_add_left hi _⟩]
    simp only [Nat.add_sub_cancel_left]
  have hlt : a.toNat + 1 < 4096 := by omega
  rw [fetch, dif_pos hlt]
  simp only [ha, Nat.add_assoc]
  rw [hbyte j (by omega), hbyte (j + 1) hj]

namespace Machine

/-- A program that is loaded is fetched from where a listing says that it is. -/
theorem fetch_load (m : Machine) {rom : List UInt8} (h : rom.length ≤ 3584) {j : Nat}
    (hj : j + 1 < rom.length) {p : UInt16} (hp : p.toNat = 0x200 + j) :
    (m.load rom).machine.memory.fetch p = some (Word.ofBytes rom[j] rom[j + 1]) := by
  rw [m.load_eq_ok h]
  exact m.memory.fetch_place (by omega) hj hp

/-- **A tick fails with an illegal instruction if the word that it fetches is none,** and
only then.  The faults of a word that is an instruction are others. -/
theorem result_tick_eq_illegal_iff {m : Machine} (hp : m.flags.paused = false) {word : UInt16}
    (hw : m.word? = some word) :
    m.tick.result = .error (.illegalInstruction m.pc word) ↔ Instr.decode word = none := by
  have hstep : m.step.result = (m.interpret word).result := by
    rw [step, hw]
    rfl
  rw [(tick_of_running hp).1, hstep, result_interpret]
  constructor
  · intro h
    by_contra hd
    rw [if_neg hd] at h
    split_ifs at h
    all_goals cases h
  · intro hd
    rw [if_pos hd]

/-- A line of the listing and a tick at its address tell alike whether the word is an
instruction. -/
theorem showsInvalid_iff_result_tick {s : Machine} {l : Line} (hp : s.flags.paused = false)
    (hpc : s.pc.toNat = l.address) (hw : s.word? = some l.word) :
    Listing.ShowsInvalid s.pc.toNat l.shown ↔
      s.tick.result = .error (.illegalInstruction s.pc l.word) := by
  rw [hpc, Listing.showsInvalid_iff, result_tick_eq_illegal_iff hp hw]

/-- **The listing shows what the machine fetches.**  Let a program fit into memory, and
let it be listed from any offset, for the address that programs are loaded to.

* The listing is made if its first address has room in 64 bits.
* Line `k` exists exactly if both bytes of word `k` after the offset are in the program.
* It shows the address `p` of the word, its disassembly and the word; and any machine
  takes the program, and then fetches this word at `p`.
* The line reads `inval` exactly if a tick at `p` fails because the word is no
  instruction, as long as memory is as the program was loaded. -/
theorem listing_shows_fetched {rom : List UInt8} (h : rom.length ≤ 3584) (offset : Nat) :
    let lines := Text.lines (Listing.text (Listing.ofProgram rom 0x200 offset))
    (0x200 + offset < UInt64.size →
      Listing.disassemble rom 0x200 offset =
        .ok (Listing.text (Listing.ofProgram rom 0x200 offset))) ∧
      (∀ k, k < lines.length ↔ offset + 2 * k + 1 < rom.length) ∧
      ∀ k line, lines[k]? = some line →
        ∃ p word : UInt16, p.toNat = 0x200 + offset + 2 * k ∧
          line = Text.hex 3 p.toNat ++ ": " ++ Word.disassemble word ++ " " ++
            (Text.Span.styled .faint (Text.hex 4 word.toNat)).render ∧
          ∀ m : Machine, (m.load rom).result = .ok () ∧
            (m.load rom).machine.memory.fetch p = some word ∧
            ∀ s : Machine, s.memory = (m.load rom).machine.memory → s.flags.paused = false →
              s.pc = p →
              (Listing.ShowsInvalid p.toNat line ↔
                s.tick.result = .error (.illegalInstruction p word)) := by
  intro lines
  have hlines : lines = (Listing.ofProgram rom 0x200 offset).map Line.shown := Listing.lines_text _
  refine ⟨fun hsum => ?_, fun k => ?_, fun k line hline => ?_⟩
  · refine Listing.disassemble_eq hsum ?_
    simp only [UInt64.size]
    omega
  · rw [hlines, List.length_map, Listing.ofProgram, Listing.length_ofBytes, List.length_drop]
    omega
  · rw [hlines, List.getElem?_map, Listing.getElem?_ofProgram] at hline
    by_cases hk : offset + 2 * k + 1 < rom.length
    · rw [dif_pos hk, Option.map_some, Option.some.injEq] at hline
      have hp : ∃ p : UInt16, p.toNat = 0x200 + offset + 2 * k :=
        ⟨.ofNat (0x200 + offset + 2 * k), by rw [UInt16.toNat_ofNat']; omega⟩
      rcases hp with ⟨p, hp⟩
      have hfetch (m : Machine) := m.fetch_load h hk (hp.trans (Nat.add_assoc 0x200 offset (2 * k)))
      generalize Word.ofBytes rom[offset + 2 * k] rom[offset + 2 * k + 1] = word at hline hfetch
      rw [← hp] at hline
      refine ⟨p, word, hp, hline.symm, fun m => ⟨by rw [m.load_eq_ok h], hfetch m, ?_⟩⟩
      rintro s hmemory hpaused rfl
      have hword : s.word? = some word := by
        rw [word?, hmemory]
        exact hfetch m
      rw [← hline]
      exact showsInvalid_iff_result_tick (l := ⟨s.pc.toNat, word⟩) hpaused rfl hword
    · rw [dif_neg hk] at hline
      cases hline

/-- Five bytes, listed from the second on: two words at odd addresses, the latter of
them no instruction. -/
theorem listing_shows_fetched_oddOffset :
    let rom : List UInt8 := [0x00, 0x60, 0x05, 0xFF, 0xFF]
    let lines := Text.lines (Listing.text (Listing.ofProgram rom 0x200 1))
    let s : Machine := { ((ofSeed 8).load rom).machine with pc := 0x203 }
    rom.length ≤ 3584 ∧ 0x200 + 1 < UInt64.size ∧
      Listing.disassemble rom 0x200 1 = .ok (Listing.text (Listing.ofProgram rom 0x200 1)) ∧
      lines.length = 2 ∧
      (∃ line, lines[1]? = some line ∧ Listing.ShowsInvalid 0x203 line) ∧
      s.tick.result = .error (.illegalInstruction 0x203 0xFFFF) := by
  intro rom lines s
  have hrom : rom.length ≤ 3584 := by decide
  have hsum : 0x200 + 1 < UInt64.size := by decide
  rcases listing_shows_fetched hrom 1 with ⟨hmade, hcount, hlines⟩
  have hone : 1 < lines.length := (hcount 1).2 (by decide)
  have htwo : ¬2 < lines.length := fun h => absurd ((hcount 2).1 h) (by decide)
  have hline : lines[1]? = some lines[1] := List.getElem?_eq_getElem hone
  rcases hlines 1 lines[1] hline with ⟨p, word, hp, -, hm⟩
  obtain rfl : p = 0x203 := UInt16.toNat_inj.1 hp
  rcases hm (ofSeed 8) with ⟨-, hfetch, htick⟩
  have hword : s.word? = some 0xFFFF := by decide +kernel
  obtain rfl : word = 0xFFFF := Option.some.inj (hfetch.symm.trans hword)
  have hfails : s.tick.result = .error (.illegalInstruction 0x203 0xFFFF) :=
    (result_tick_eq_illegal_iff rfl hword).2 (by decide)
  exact ⟨hrom, hsum, hmade hsum, by omega, ⟨lines[1], hline, (htick s rfl rfl rfl).2 hfails⟩,
    hfails⟩

end Machine
end Chip8
