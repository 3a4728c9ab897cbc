/-
# A memory holds what it was last given

Four calls change a memory.  Each gives a byte to every cell that it covers.

| call | gives | to |
| --- | --- | --- |
| `write a b` | `b` | cell `a % 4096` |
| `load r data`, if the data fit into `r` | byte `k` of the data | cell `k` of `r` |
| `load r data`, if they do not fit | nothing | no cell |
| `clear r` | zero | every cell of `r` |
| `reset` | the font, then zeros | every cell |

A call that covers a cell leaves nothing of the byte before, and one that does not cover
it leaves that byte alone (`bytes_after`).  So after any run of calls the last one that
covers a cell tells what is in it, and if there is none, the fresh memory does
(`bytes_run`).  Regions overlap with what is written to single addresses, and sixteen
addresses share a cell; neither needs a case of its own, because calls are compared cell
by cell.

Bytes are read at addresses that wrap, words are fetched within bounds.  Up to `0xFFE`
the two agree, and beyond there is no word (`toNat_fetch`).
-/

import Chip8.Proofs.Loading
import Chip8.Proofs.Reset

namespace Chip8
namespace Memory

/-- A call that changes a memory. -/
inductive Edit where
  | write (a : UInt16) (b : UInt8)
  | load (r : Region) (data : List UInt8)
  | clear (r : Region)
  | reset
  deriving DecidableEq, Repr

/-- The byte that a fresh memory has in a cell: one of the font, or zero. -/
def freshByte (i : Nat) : UInt8 := font.getD i 0

namespace Edit

/-- The memory that a call makes of another, or why the call is refused. -/
def perform (m : Memory) : Edit → Except Fault Memory
  | .write a b => .ok (m.write a b)
  | .load r data => m.load r data
  | .clear r => .ok (m.clear r)
  | .reset => .ok m.reset

/-- The memory after a call; one that is refused leaves it as it was. -/
def after (m : Memory) (e : Edit) : Memory :=
  match e.perform m with
  | .ok memory => memory
  | .error _ => m

/-- The memory after calls, one after the other. -/
def run (m : Memory) (edits : List Edit) : Memory := edits.foldl after m

/-- What a call gives to a cell, if it covers the cell. -/
def given? (i : Nat) : Edit → Option UInt8
  | .write a b => if a.toNat % 4096 = i then some b else none
  | .load r data => if data.length ≤ r.capacity ∧ r.start ≤ i then data[i - r.start]? else none
  | .clear r => if r.start ≤ i ∧ i < r.stop then some 0 else none
  | .reset => some (freshByte i)

/-- What the last call that covers a cell gives to it, if there is one. -/
def lastGiven? (i : Nat) (edits : List Edit) : Option UInt8 := edits.reverse.findSome? (given? i)

/-- The first call tells only if none of the others covers the cell. -/
theorem lastGiven?_cons (i : Nat) (e : Edit) (edits : List Edit) :
    lastGiven? i (e :: edits) = (lastGiven? i edits).or (e.given? i) := by
  unfold lastGiven?
  rw [List.reverse_cons, List.findSome?_append, List.findSome?_singleton]

/-- Only a load is refused, and only if its region has no room for the data. -/
theorem exists_perform_eq_error_iff (m : Memory) (e : Edit) :
    (∃ f, e.perform m = .error f) ↔ ∃ r data, e = .load r data ∧ r.capacity < data.length := by
  constructor
  · rintro ⟨f, hf⟩
    rcases e with _ | ⟨r, data⟩ | _ | _
    · cases hf
    · exact ⟨r, data, rfl, (m.exists_load_eq_error_iff r data).1 ⟨f, hf⟩⟩
    · cases hf
    · cases hf
  · rintro ⟨r, data, rfl, hlt⟩
    exact (m.exists_load_eq_error_iff r data).2 hlt

end Edit

/-! ## What a call does to a cell -/

variable (m : Memory) {i : Nat}

/-- A fresh memory has the fresh byte in each cell. -/
theorem bytes_fresh (hi : i < 4096) : fresh.bytes[i] = freshByte i := by
  rw [getElem_fresh hi, freshByte, List.getD_eq_getElem?_getD]
  by_cases h : i < font.length
  · rw [dif_pos h, List.getElem?_eq_getElem h, Option.getD_some]
  · rw [dif_neg h, List.getElem?_eq_none (Nat.le_of_not_lt h), Option.getD_none]

/-- Bytes that are placed in memory cover as many cells as there are bytes. -/
theorem bytes_place (start : Nat) (data : List UInt8) (hi : i < 4096) :
    (m.place start data).bytes[i] =
      (if start ≤ i then data[i - start]? else none).getD m.bytes[i] := by
  rw [getElem_place]
  by_cases hstart : start ≤ i
  · rw [if_pos hstart]
    by_cases hk : i - start < data.length
    · rw [dif_pos ⟨hstart, by omega⟩, List.getElem?_eq_getElem hk, Option.getD_some]
    · rw [dif_neg (by omega), List.getElem?_eq_none (Nat.le_of_not_lt hk), Option.getD_none]
  · rw [if_neg hstart, dif_neg fun h => hstart h.1, Option.getD_none]

/-- A write gives its byte to the cell that its address wraps to. -/
theorem bytes_write (a : UInt16) (b : UInt8) (hi : i < 4096) :
    (m.write a b).bytes[i] = if a.toNat % 4096 = i then b else m.bytes[i] := by
  rw [write, Vector.getElem_set]
  rfl

/-- A load that fits covers as many cells of its region as there are data. -/
theorem bytes_load {memory : Memory} {r : Region} {data : List UInt8}
    (h : m.load r data = .ok memory) (hi : i < 4096) :
    memory.bytes[i] = (if r.start ≤ i then data[i - r.start]? else none).getD m.bytes[i] := by
  unfold load at h
  split at h
  · cases h
    exact bytes_place m r.start data hi
  · cases h

/-- Clearing a region gives zero to its cells and to no others. -/
theorem bytes_clear (r : Region) (hi : i < 4096) :
    (m.clear r).bytes[i] = if r.start ≤ i ∧ i < r.stop then 0 else m.bytes[i] := by
  have hcap := r.start_add_capacity
  rw [clear, bytes_place _ _ _ hi, List.getElem?_replicate]
  by_cases hstart : r.start ≤ i
  · have hstop : i - r.start < r.capacity ↔ i < r.stop := by omega
    simp only [hstart, hstop, if_true, true_and]
    split <;> rfl
  · rw [if_neg hstart, if_neg fun h => hstart h.1]
    rfl

/-- A reset gives the fresh byte to each cell. -/
theorem bytes_reset (hi : i < 4096) : m.reset.bytes[i] = freshByte i := by
  rw [m.reset_eq, bytes_fresh hi]

/-- **A call gives a cell its byte, or leaves it as it is.** -/
theorem bytes_after (e : Edit) (hi : i < 4096) :
    (e.after m).bytes[i] = (e.given? i).getD m.bytes[i] := by
  rcases e with ⟨a, b⟩ | ⟨r, data⟩ | r | _
  · refine (m.bytes_write a b hi).trans ?_
    rw [Edit.given?]
    split <;> rfl
  · rw [Edit.after, Edit.perform, Edit.given?]
    by_cases hfits : data.length ≤ r.capacity
    · obtain ⟨memory, hload, -⟩ := m.load_of_le hfits
      rw [hload]
      refine (m.bytes_load hload hi).trans ?_
      simp only [hfits, true_and]
    · rw [m.load_of_lt (Nat.lt_of_not_le hfits), if_neg fun h => hfits h.1]
      rfl
  · refine (m.bytes_clear r hi).trans ?_
    rw [Edit.given?]
    split <;> rfl
  · exact m.bytes_reset hi

/-! ## What a run of calls does to a cell -/

/-- **A cell holds what it was last given,** or what it held before. -/
theorem bytes_run (edits : List Edit) (hi : i < 4096) :
    (Edit.run m edits).bytes[i] = (Edit.lastGiven? i edits).getD m.bytes[i] := by
  induction edits generalizing m with
  | nil => rfl
  | cons e edits ih =>
    show (Edit.run (e.after m) edits).bytes[i] = _
    rw [ih, m.bytes_after e hi, Edit.lastGiven?_cons, Option.getD_or]

/-- **A fetched word is the two bytes that are read at its address.** -/
theorem toNat_fetch (a : UInt16) :
    (m.fetch a).map UInt16.toNat =
      if a.toNat ≤ 0xFFE then some (256 * (m.read a).toNat + (m.read (a + 1)).toNat)
      else none := by
  rw [fetch_eq]
  by_cases h : a.toNat + 1 < 4096
  · rw [if_pos h, if_pos (by omega), Option.map_some, Word.toNat_ofBytes]
  · rw [if_neg h, if_neg (by omega), Option.map_none]

/-- **A memory holds what it was last given.**  After any run of calls a fresh memory still
has 4096 bytes.  At every address there is read what the last call that covers the cell
of the address has given to it, or the byte of a fresh memory if no call covers it.  A
call is refused exactly if it loads more data than the region has room for, and then it
covers no cell.  A word is fetched up to `0xFFE` and nowhere else, and is made up of the
bytes that are read at its address and the next. -/
theorem holds_last_given (edits : List Edit) :
    let m := Edit.run fresh edits
    m.bytes.toList.length = 4096 ∧
    (∀ b : UInt16, m.read b =
      (Edit.lastGiven? (b.toNat % 4096) edits).getD (freshByte (b.toNat % 4096))) ∧
    (∀ e : Edit, (∃ f, e.perform m = .error f) ↔
      ∃ r data, e = .load r data ∧ r.capacity < data.length) ∧
    ∀ a : UInt16, (m.fetch a).map UInt16.toNat =
      if a.toNat ≤ 0xFFE then some (256 * (m.read a).toNat + (m.read (a + 1)).toNat)
      else none := by
  intro m
  refine ⟨Vector.length_toList, fun b => ?_, Edit.exists_perform_eq_error_iff m, m.toNat_fetch⟩
  have hcell : b.toNat % 4096 < 4096 := Nat.mod_lt _ (by decide)
  rw [← bytes_fresh hcell]
  exact fresh.bytes_run edits hcell

/-- A byte is written behind the first one of a program, and outlasts the load of another
program, which has one byte only; the font is cleared. -/
example :
    let m := Edit.run fresh [.load .program [0x61, 0x05, 0x12], .write 0xF201 0x42,
      .load .program [0x70], .clear .charset]
    m.read 0x3201 = 0x42 ∧ m.read 0x1000 = 0x00 ∧ m.fetch 0x200 = some 0x7042 ∧
      m.fetch 0x1200 = none := by
  decide +kernel

end Memory
end Chip8
