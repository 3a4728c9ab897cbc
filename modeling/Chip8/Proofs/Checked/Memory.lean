/-
# Memory, checked

The operations on memory with every access checked.  What keeps them in bounds is

* for a byte, that its address is reduced to the size of the memory;
* for a word, that it is fetched by an access that may come out empty, and otherwise
  yields its two bytes;
* for a region, that it lies in memory, and for what is loaded into it, that its length
  has been compared with the capacity;
* for a window, that both of its ends have been cut to the memory, also if they are far
  beyond it or the wrong way round.
-/

import Chip8.Memory.Hexdump
import Chip8.Proofs.Checked.Operation

namespace Chip8
namespace Memory

/-- The byte at an address. -/
def checkedRead (m : Memory) (a : UInt16) : Checked UInt8 :=
  Checked.get m.bytes (a.toNat % size)

/-- Puts a byte at an address. -/
def checkedWrite (m : Memory) (a : UInt16) (b : UInt8) : Checked Memory :=
  return ⟨← Checked.set m.bytes (a.toNat % size) b⟩

/-- The word of two bytes. -/
def checkedWord (bytes : List UInt8) : Checked UInt16 := do
  let high ← Checked.item bytes 0
  let low ← Checked.item bytes 1
  return Word.ofBytes high low

/-- The word at an address, if both of its bytes lie in memory. -/
def checkedFetch (m : Memory) (a : UInt16) : Checked (Option UInt16) := do
  let stop ← Checked.add UInt64.size a.toNat 2
  (m.get? a.toNat stop).mapM checkedWord

/-- Copies bytes into the slice from `start` up to `stop`. -/
def checkedCopy (m : Memory) (start stop : Nat) (data : List UInt8) : Checked Memory := do
  Checked.range start stop size
  Checked.copy (stop - start) data.length
  return m.place start data

/-- A fresh memory: zeros, with the font copied into its region. -/
def checkedFresh : Checked Memory :=
  zero.checkedCopy Region.charset.start Region.charset.stop font

/-- Fills the memory with zeros, then copies the font back into its region. -/
def checkedReset (m : Memory) : Checked Memory :=
  (m.fill 0).checkedCopy Region.charset.start Region.charset.stop font

/-- The bytes of a region. -/
def checkedRegion (m : Memory) (r : Region) : Checked (List UInt8) := do
  Checked.range r.start r.stop size
  return m.slice r.start r.stop

/-- Copies bytes to the start of a region, if they fit into it. -/
def checkedLoad (m : Memory) (r : Region) (data : List UInt8) :
    Checked (Except Fault Memory) := do
  if data.length ≤ r.capacity then
    let stop ← Checked.add UInt64.size r.start data.length
    return .ok (← m.checkedCopy r.start stop data)
  else return .error (.programTooLarge data.length r.capacity)

/-- Fills a region with zeros. -/
def checkedClear (m : Memory) (r : Region) : Checked Memory := do
  Checked.range r.start r.stop size
  return m.place r.start (List.replicate (r.stop - r.start) 0)

/-- The dump of the bytes of a window that begins at `start`, from number `i` on. -/
def checkedDump (start : Nat) : Nat → List UInt8 → Checked (List Text.Span)
  | _, [] => return []
  | i, b :: bs => do
    let addr ← Checked.add UInt64.size start i
    let rest ← checkedDump start (i + 1) bs
    return (if i == 0 || addr % 16 == 0 then lineHead addr else [])
      ++ .ofText (Text.hex 2 b.toNat ++ gapAfter addr) :: rest

/-- The dump of the bytes from `start` up to `stop`, both cut to the memory. -/
def checkedWindow (m : Memory) (start stop : Nat) : Checked (List Text.Span) := do
  let stop := min stop size
  let start := min start stop
  Checked.range start stop size
  checkedDump start 0 (m.slice start stop)

section Ok

variable (m : Memory)

/-- An address that is taken modulo the size lies in memory. -/
theorem mod_size_lt (n : Nat) : n % size < 4096 := Nat.mod_lt n (by decide)

/-- A read is refused nowhere. -/
theorem checkedRead_eq (a : UInt16) : m.checkedRead a = .ok (m.read a) := by
  rw [checkedRead, Checked.get_of_lt (mod_size_lt _)]
  rfl

/-- A write is refused nowhere. -/
theorem checkedWrite_eq (a : UInt16) (b : UInt8) : m.checkedWrite a b = .ok (m.write a b) := by
  rw [checkedWrite, Checked.set_of_lt (mod_size_lt _)]
  rfl

/-- A slice of two places in memory has their two bytes. -/
theorem slice_two {a : Nat} (h : a + 1 < 4096) :
    m.slice a (a + 2) = [m.bytes[a], m.bytes[a + 1]] := by
  have hlen : (m.slice a (a + 2)).length = 2 := by
    rw [length_slice]
    omega
  refine List.ext_getElem hlen fun i hi _ => ?_
  rw [getElem_slice]
  obtain rfl | rfl : i = 0 ∨ i = 1 := by omega
  · rfl
  · rfl

/-- A fetch is refused nowhere: one that leaves memory comes out empty. -/
theorem checkedFetch_eq (a : UInt16) : m.checkedFetch a = .ok (m.fetch a) := by
  have ha : a.toNat + 2 < UInt64.size := by
    have := a.toNat_lt
    simp only [UInt64.size]
    omega
  rw [checkedFetch, Checked.add_of_lt ha]
  show (m.get? a.toNat (a.toNat + 2)).mapM checkedWord = _
  rw [get?, fetch]
  by_cases hin : a.toNat + 1 < 4096
  · have hslice : a.toNat ≤ a.toNat + 2 ∧ a.toNat + 2 ≤ size := by
      simp only [size]
      omega
    rw [if_pos hslice, dif_pos hin, m.slice_two hin]
    rfl
  · have hslice : ¬(a.toNat ≤ a.toNat + 2 ∧ a.toNat + 2 ≤ size) := by
      simp only [size]
      omega
    rw [if_neg hslice, dif_neg hin]
    rfl

/-- A copy that has the length of its slice is refused nowhere. -/
theorem checkedCopy_eq {start stop : Nat} {data : List UInt8} (hstop : stop ≤ size)
    (hlen : start + data.length = stop) :
    m.checkedCopy start stop data = .ok (m.place start data) := by
  have hrange : Checked.range start stop size = .ok () :=
    Checked.range_of_le (by omega) hstop
  have hcopy : Checked.copy (stop - start) data.length = .ok () :=
    Checked.copy_of_eq (by omega)
  rw [checkedCopy, hrange, hcopy]
  rfl

/-- The font fits into a fresh memory. -/
theorem checkedFresh_eq : checkedFresh = .ok fresh :=
  zero.checkedCopy_eq (Region.stop_le _) rfl

/-- The font fits into a memory that is reset. -/
theorem checkedReset_eq : m.checkedReset = .ok m.reset :=
  (m.fill 0).checkedCopy_eq (Region.stop_le _) rfl

/-- A region is a slice of the memory. -/
theorem range_region (r : Region) : Checked.range r.start r.stop size = .ok () := by
  have hcap := r.start_add_capacity
  exact Checked.range_of_le (by omega) r.stop_le

/-- The slice of a region lies within memory. -/
theorem checkedRegion_eq (r : Region) : m.checkedRegion r = .ok (m.region r) := by
  rw [checkedRegion, range_region]
  rfl

/-- Loading into a region is refused nowhere: data that do not fit are a fault. -/
theorem checkedLoad_eq (r : Region) (data : List UInt8) :
    m.checkedLoad r data = .ok (m.load r data) := by
  rw [checkedLoad, load]
  by_cases hfits : data.length ≤ r.capacity
  · have hcap := r.start_add_capacity
    have hstop := r.stop_le
    have hsum : r.start + data.length < UInt64.size := by
      simp only [UInt64.size]
      omega
    have hcopy : m.checkedCopy r.start (r.start + data.length) data =
        .ok (m.place r.start data) := m.checkedCopy_eq (by simp only [size]; omega) rfl
    rw [if_pos hfits, if_pos hfits, Checked.add_of_lt hsum]
    show (m.checkedCopy r.start (r.start + data.length) data).bind _ = _
    rw [hcopy]
    rfl
  · rw [if_neg hfits, if_neg hfits]
    rfl

/-- Clearing a region is refused nowhere. -/
theorem checkedClear_eq (r : Region) : m.checkedClear r = .ok (m.clear r) := by
  rw [checkedClear, range_region]
  rfl

/-- A dump that ends in memory is refused nowhere. -/
theorem checkedDump_eq {start i : Nat} {bytes : List UInt8}
    (hend : start + i + bytes.length ≤ size) :
    checkedDump start i bytes = .ok (dumpBytes (i == 0) (start + i) bytes) := by
  induction bytes generalizing i with
  | nil => rfl
  | cons b bs ih =>
    simp only [List.length_cons, size] at hend ih
    have hadd : Checked.add UInt64.size start i = .ok (start + i) :=
      Checked.add_of_lt (by simp only [UInt64.size]; omega)
    have hrest := ih (i := i + 1) (by omega)
    rw [checkedDump, hadd, hrest]
    rfl

/-- A window is dumped without a refusal, as its ends are cut to the memory first. -/
theorem checkedWindow_eq (start stop : Nat) :
    m.checkedWindow start stop = .ok (m.window start stop) := by
  have hstop : min stop size ≤ size := Nat.min_le_right ..
  have hstart : min start (min stop size) ≤ min stop size := Nat.min_le_right ..
  have hrange : Checked.range (min start (min stop size)) (min stop size) size = .ok () :=
    Checked.range_of_le hstart hstop
  have hend : min start (min stop size) + 0 +
      (m.slice (min start (min stop size)) (min stop size)).length ≤ size := by
    rw [length_slice]
    simp only [size] at *
    omega
  rw [checkedWindow, hrange]
  exact checkedDump_eq hend

end Ok

end Memory
end Chip8
