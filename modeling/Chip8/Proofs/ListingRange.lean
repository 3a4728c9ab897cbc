/-
# The range of a listing's addresses

A listing that is made with checks is made if the sum of the load address and the offset
has room in 64 bits, and stops at that sum if it has none.  All its other sums and products
have room then, because a program is much shorter than 64 bits can count.

| load address + offset | with checks | modulo `2 ^ 64` |
| --- | --- | --- |
| below `2 ^ 64` | the listing | the listing |
| otherwise | stops | the listing, which is empty |

The second line can be reached: the options admit every load address of 16 bits and every
offset of 64 bits (`admits_iff`).  The sum of the two is formed before it is known that the
offset lies beyond the program, and then it is formed for nothing.
-/

import Chip8.Command.Disassemble
import Chip8.Proofs.NumeralText

namespace Chip8

/-! ## What the options admit -/

namespace Command

/-- Arguments that name a file are performed on it. -/
theorem run_of_file {ι σ : Type} {c : Command ι σ} {arguments : List String} {settings : σ}
    {path : String} (h : c.readArguments arguments = .ok (.file settings path))
    (runtime : Runtime) (program : String) (files : String → Except FileError (List UInt8)) :
    c.run runtime program files arguments = runtime.finished (c.perform settings (files path)) := by
  rw [run, h]
  rfl

section Settings

variable {ι σ : Type} {c : Command ι σ} {P : σ → Prop}

/-- What switches and values keep, an item of the command line keeps. -/
theorem settings_readItem (hswitch : ∀ s i, P s → P (c.switch s i))
    (hassign : ∀ s i text t, P s → c.assign s i text = .ok t → P t) {a b : Arguments σ}
    {item : Item ι} (ha : P a.settings) (h : c.readItem a item = .ok b) : P b.settings := by
  cases item with
  | switch spec =>
    rw [readItem] at h
    split at h
    · obtain rfl := Except.ok.inj h
      exact ha
    · obtain rfl := Except.ok.inj h
      exact hswitch _ _ ha
  | value spec written text =>
    rw [readItem] at h
    split at h
    · obtain rfl := Except.ok.inj h
      exact ha
    · split at h
      · cases h
      · rename_i hok
        obtain rfl := Except.ok.inj h
        exact hassign _ _ _ _ ha hok
  | free text =>
    rw [readItem] at h
    split at h
    · obtain rfl := Except.ok.inj h
      exact ha
    · cases h
  | refused why => cases h

/-- What switches and values keep, the items of a command line keep, one after the other. -/
theorem settings_readItems (hswitch : ∀ s i, P s → P (c.switch s i))
    (hassign : ∀ s i text t, P s → c.assign s i text = .ok t → P t) {items : List (Item ι)} :
    ∀ {a b : Arguments σ}, P a.settings → c.readItems a items = .ok b → P b.settings := by
  induction items with
  | nil =>
    intro a b ha hb
    obtain rfl := Except.ok.inj hb
    exact ha
  | cons item items ih =>
    intro a b ha hb
    rw [readItems] at hb
    split at hb
    · cases hb
    · rename_i hitem
      exact ih (settings_readItem hswitch hassign ha hitem) hb

/-- **What switches and values keep holds of the settings** that a command line asks for. -/
theorem settings_readArguments (hinitial : P c.initial)
    (hswitch : ∀ s i, P s → P (c.switch s i))
    (hassign : ∀ s i text t, P s → c.assign s i text = .ok t → P t) {arguments : List String}
    {settings : σ} {path : String} (h : c.readArguments arguments = .ok (.file settings path)) :
    P settings := by
  rw [readArguments] at h
  split at h
  · cases h
  · rename_i a hread
    have ha := settings_readItems hswitch hassign hinitial hread
    split at h
    · cases h
    · split at h
      · cases h
      · cases h
        exact ha

end Settings

namespace Disassemble

/-- The command can be asked for a listing from this load address and offset. -/
def Admits (loadAddress offset : Nat) : Prop :=
  ∃ arguments path, listProgram.readArguments arguments = .ok (.file ⟨loadAddress, offset⟩ path)

/-- The load address is a word, and the offset a number of 64 bits. -/
def Settings.InRange (s : Settings) : Prop :=
  s.loadAddress < UInt16.size ∧ s.offset < UInt64.size

/-- A number that an option is set to is below the limit of the option. -/
theorem exists_of_map_read {radix limit : Nat} {text : String} {f : Nat → Settings} {t : Settings}
    (hlimit : 0 < limit)
    (h : ((Text.Numeral.read radix limit text).mapError Text.Numeral.Refusal.message).map f =
      .ok t) : ∃ n < limit, t = f n := by
  cases hread : Text.Numeral.read radix limit text with
  | error why =>
    rw [hread] at h
    cases h
  | ok n =>
    rw [hread] at h
    obtain rfl := Except.ok.inj h
    exact ⟨n, Text.Numeral.read_lt hlimit hread, rfl⟩

/-- **Settings stay in range,** whatever an option is set to. -/
theorem Settings.InRange.assign {s t : Settings} {setting : Setting} {text : String}
    (hs : s.InRange) (h : Disassemble.assign s setting text = .ok t) : t.InRange := by
  cases setting with
  | loadAddress =>
    obtain ⟨n, hn, rfl⟩ := exists_of_map_read (by decide) h
    exact ⟨hn, hs.2⟩
  | offset =>
    obtain ⟨n, hn, rfl⟩ := exists_of_map_read (by decide) h
    exact ⟨hs.1, hn⟩

/-- A word that is written in hexadecimal is read as the load address. -/
theorem readWord_hex {n : Nat} (h : n < UInt16.size) : readWord (Text.hex 0 n) = .ok n := by
  have hread : Text.Numeral.read 16 UInt16.size (Text.hex 0 n) = .ok n :=
    (Text.Numeral.read_eq_ok_iff (by decide) (by decide) (by decide)).2
      ⟨h, Text.Numeral.isNumeral_hex 0 n⟩
  rw [readWord, hread]
  rfl

/-- A number of 64 bits that is written in decimal is read as the offset. -/
theorem readNumber_decimal {n : Nat} (h : n < UInt64.size) :
    Run.readNumber (Text.decimal n) = .ok n := by
  have hread : Text.Numeral.readDecimal (Text.decimal n) = .ok n :=
    (Text.Numeral.read_eq_ok_iff (by decide) (by decide) (by decide)).2
      ⟨h, Text.Numeral.isNumeral_decimal n⟩
  rw [Run.readNumber, hread]
  rfl

/-- Both options, each with its value. -/
theorem items_of_both (address offset : String) :
    ∃ first second : OptionSpec Setting,
      items listProgram.options ["--loadaddr", address, "--offset", offset, "rom"] =
        [.value first "--loadaddr" address, .value second "--offset" offset, .free "rom"] ∧
      first.setting = some .loadAddress ∧ second.setting = some .offset :=
  ⟨_, _, rfl, rfl, rfl⟩

/-- **The options admit every load address of 16 bits and every offset of 64 bits,** and
nothing beyond. -/
theorem admits_iff {loadAddress offset : Nat} :
    Admits loadAddress offset ↔ loadAddress < UInt16.size ∧ offset < UInt64.size := by
  constructor
  · rintro ⟨arguments, path, h⟩
    have hinitial : listProgram.initial.InRange := ⟨by decide, by decide⟩
    exact settings_readArguments hinitial (fun s i hs => hs)
      (fun s i text t hs hassign => hs.assign hassign) h
  · rintro ⟨hload, hoffset⟩
    refine ⟨["--loadaddr", Text.hex 0 loadAddress, "--offset", Text.decimal offset, "rom"],
      "rom", ?_⟩
    obtain ⟨first, second, hitems, hfirst, hsecond⟩ :=
      items_of_both (Text.hex 0 loadAddress) (Text.decimal offset)
    have hload : listProgram.assign listProgram.initial .loadAddress (Text.hex 0 loadAddress) =
        .ok ⟨loadAddress, 0⟩ := congrArg (Except.map _) (readWord_hex hload)
    have hoffset : listProgram.assign ⟨loadAddress, 0⟩ .offset (Text.decimal offset) =
        .ok ⟨loadAddress, offset⟩ := congrArg (Except.map _) (readNumber_decimal hoffset)
    have hsettings : listProgram.readItems ⟨listProgram.initial, false, none⟩
        [.value first "--loadaddr" (Text.hex 0 loadAddress),
          .value second "--offset" (Text.decimal offset), .free "rom"] =
        .ok ⟨⟨loadAddress, offset⟩, false, some "rom"⟩ := by
      simp only [readItems, readItem, hfirst, hsecond, hload, hoffset]
    rw [readArguments, hitems, hsettings]
    rfl

/-- **The command prints what is listed,** or is stopped where the listing is. -/
theorem run_eq_of_file {loadAddress offset : Nat} {arguments : List String} {path : String}
    (h : listProgram.readArguments arguments = .ok (.file ⟨loadAddress, offset⟩ path))
    {files : String → Except FileError (List UInt8)} {program : List UInt8}
    (hfile : files path = .ok program) (runtime : Runtime) (name : String) :
    listProgram.run runtime name files arguments = runtime.finished
      ((Listing.disassemble program loadAddress offset).map fun listing => ⟨0, listing, ""⟩) := by
  rw [run_of_file h, hfile]
  rfl

end Disassemble
end Command

namespace Listing

open Command (listProgram)
open Command.Disassemble (Admits admits_iff run_eq_of_file)

/-- Nothing stops a listing modulo `2 ^ 64`, and beyond the end of a program it is empty. -/
theorem run_programIn_wrapping {program : List UInt8} {offset : Nat}
    (h : program.length ≤ offset) (loadAddress : Nat) :
    (programIn .wrapping program loadAddress offset).run = [] := by
  rw [programIn, List.drop_of_length_le h]
  rfl

/-- **A listing is made exactly if its first address has room.**  Take any program, of a
length that a program can have, and any load address and offset that the options admit.
Modulo `2 ^ 64` the listing is made as it should be.  With checks it is made as it should
be if the load address and the offset together are below `2 ^ 64`; otherwise their sum
stops it, although nothing is to be listed there.  The command prints the listing, or is
stopped, accordingly. -/
theorem listing_in_range_iff {program : List UInt8}
    (hlength : program.length < 0x8000000000000000) {loadAddress offset : Nat}
    (hoptions : Admits loadAddress offset) :
    let listing := text (ofProgram program loadAddress offset)
    (programIn .wrapping program loadAddress offset).run =
        ofProgram program loadAddress offset ∧
      (disassemble program loadAddress offset = .ok listing ↔
        loadAddress + offset < UInt64.size) ∧
      (UInt64.size ≤ loadAddress + offset →
        disassemble program loadAddress offset = .error .sum ∧
          ofProgram program loadAddress offset = []) ∧
      ∀ (runtime : Runtime) (name : String) (files : String → Except FileError (List UInt8))
        (arguments : List String) (path : String),
        listProgram.readArguments arguments = .ok (.file ⟨loadAddress, offset⟩ path) →
        files path = .ok program →
        listProgram.run runtime name files arguments =
          if loadAddress + offset < UInt64.size then ⟨0, listing, ""⟩
          else runtime.stopped .sum := by
  intro listing
  obtain ⟨hload, -⟩ := admits_iff.1 hoptions
  have hend : loadAddress + program.length ≤ UInt64.size := by
    simp only [UInt64.size, UInt16.size] at hload ⊢
    omega
  by_cases hsum : loadAddress + offset < UInt64.size
  · have hmade : disassemble program loadAddress offset = .ok listing := disassemble_eq hsum hend
    refine ⟨programIn_eq Arithmetic.exact_wrapping hsum hend, iff_of_true hmade hsum,
      fun hlarge => absurd hsum (Nat.not_lt.2 hlarge),
      fun runtime name files arguments path hread hfile => ?_⟩
    rw [run_eq_of_file hread hfile, hmade, if_pos hsum]
    rfl
  · have hbeyond : program.length ≤ offset := by
      simp only [UInt64.size, UInt16.size] at hload hsum
      omega
    have hnone := ofProgram_eq_nil hbeyond loadAddress
    have hstopped : disassemble program loadAddress offset = .error .sum :=
      disassemble_of_le (Nat.not_lt.1 hsum)
    refine ⟨(run_programIn_wrapping hbeyond loadAddress).trans hnone.symm, ?_,
      fun _ => ⟨hstopped, hnone⟩, fun runtime name files arguments path hread hfile => ?_⟩
    · rw [hstopped]
      exact iff_of_false nofun hsum
    · rw [run_eq_of_file hread hfile, hstopped, if_neg hsum]
      rfl

/-- The largest offset at which a listing that lies at `0x200` is still made. -/
theorem listing_in_range_iff_lastOffset :
    let program : List UInt8 := [0x00, 0xE0]
    let arguments := ["--offset", "18446744073709551103", "rom"]
    program.length < 0x8000000000000000 ∧ Admits 0x200 18446744073709551103 ∧
      disassemble program 0x200 18446744073709551103 = .ok "" ∧
      listProgram.readArguments arguments = .ok (.file ⟨0x200, 18446744073709551103⟩ "rom") ∧
      listProgram.run ⟨1, "disasm", ""⟩ "disasm" (fun _ => .ok program) arguments =
        ⟨0, "", ""⟩ := by
  intro program arguments
  have hlength : program.length < 0x8000000000000000 := by decide
  have hoptions : Admits 0x200 18446744073709551103 := admits_iff.2 (by decide)
  have hread : listProgram.readArguments arguments =
      .ok (.file ⟨0x200, 18446744073709551103⟩ "rom") := rfl
  have hnone : ofProgram program 0x200 18446744073709551103 = [] :=
    ofProgram_eq_nil (by decide) 0x200
  obtain ⟨-, hmade, -, hrun⟩ := listing_in_range_iff hlength hoptions
  have hprinted := hrun ⟨1, "disasm", ""⟩ "disasm" (fun _ => .ok program) arguments "rom" hread rfl
  rw [hnone, if_pos (by decide)] at hprinted
  rw [hnone] at hmade
  exact ⟨hlength, hoptions, hmade.2 (by decide), hread, hprinted⟩

/-- **A listing can be stopped:** with the largest offset that the options admit and the load
address that is meant if none is given, the sum of the two has no room. -/
theorem listing_out_of_range :
    let arguments := ["--offset", "18446744073709551615", "rom"]
    listProgram.readArguments arguments = .ok (.file ⟨0x200, 18446744073709551615⟩ "rom") ∧
      disassemble [0x00, 0xE0] 0x200 18446744073709551615 = .error .sum ∧
      listProgram.run ⟨1, "disasm", ""⟩ "disasm" (fun _ => .ok [0x00, 0xE0]) arguments =
        Runtime.stopped ⟨1, "disasm", ""⟩ .sum ∧
      ¬∀ (program : List UInt8) (loadAddress offset : Nat),
        program.length < 0x8000000000000000 → Admits loadAddress offset →
          ∃ listing, disassemble program loadAddress offset = .ok listing := by
  intro arguments
  have hread : listProgram.readArguments arguments =
      .ok (.file ⟨0x200, 18446744073709551615⟩ "rom") := rfl
  have hstopped : disassemble [0x00, 0xE0] 0x200 18446744073709551615 = .error .sum :=
    disassemble_of_le (by decide)
  refine ⟨hread, hstopped, ?_, fun h => ?_⟩
  · rw [run_eq_of_file hread rfl, hstopped]
    rfl
  · obtain ⟨listing, hlisting⟩ :=
      h [0x00, 0xE0] 0x200 18446744073709551615 (by decide) ⟨_, _, hread⟩
    rw [hstopped] at hlisting
    cases hlisting

end Listing
end Chip8
