/-
# Memory

Memory is 4096 bytes.  Data accesses take any 16-bit address and wrap at the end
of memory; an instruction is fetched only where both of its bytes lie inside.
Two regions have a name:

| region | from | up to | holds |
| --- | ---: | ---: | --- |
| `charset` | `0x000` | `0x050` | the font, which a program may overwrite |
| `program` | `0x200` | `0x1000` | the program |

The bytes are the one view of a memory: every operation below is described by
what it does to `bytes[i]`.
-/

import Chip8.Fault
import Chip8.Memory.Font
import Chip8.Word

namespace Chip8

/-- A memory of 4096 bytes. -/
structure Memory where
  bytes : Vector UInt8 4096
  deriving DecidableEq

namespace Memory

/-- The number of bytes. -/
def size : Nat := 4096

/-- All bytes are zero. -/
def zero : Memory := ⟨.replicate 4096 0⟩

/-- The place of a 16-bit address in memory: addresses wrap at the end. -/
def wrap (a : UInt16) : Address := Word.address a

/-- The byte at an address. -/
def read (m : Memory) (a : UInt16) : UInt8 := m.bytes[(wrap a).val]

/-- Puts a byte at an address. -/
def write (m : Memory) (a : UInt16) (b : UInt8) : Memory := ⟨m.bytes.set (wrap a).val b⟩

/-- The word at an address, if both of its bytes lie in memory. -/
def fetch (m : Memory) (a : UInt16) : Option UInt16 :=
  if h : a.toNat + 1 < 4096 then some (Word.ofBytes m.bytes[a.toNat] m.bytes[a.toNat + 1])
  else none

/-- The bytes from `start` up to `stop`, as far as there are any. -/
def slice (m : Memory) (start stop : Nat) : List UInt8 := (m.bytes.extract start stop).toList

/-- The bytes from `start` up to `stop`, if this is a range of memory. -/
def get? (m : Memory) (start stop : Nat) : Option (List UInt8) :=
  if start ≤ stop ∧ stop ≤ size then some (m.slice start stop) else none

/-- Puts bytes into memory one after the other, the first at `start`; what does
not fit is dropped. -/
def place (m : Memory) (start : Nat) : List UInt8 → Memory
  | [] => m
  | b :: bs => if h : start < 4096 then place ⟨m.bytes.set start b⟩ (start + 1) bs else m

/-- A fresh memory: the font, then zeros. -/
def fresh : Memory := zero.place 0 font

/-- The parts of memory that have a name. -/
inductive Region where
  | charset
  | program
  deriving DecidableEq, Repr

namespace Region

/-- The first address of a region. -/
def start : Region → Nat
  | .charset => 0
  | .program => 0x200

/-- The address after the last one of a region. -/
def stop : Region → Nat
  | .charset => font.length
  | .program => size

/-- The number of bytes of a region. -/
def capacity (r : Region) : Nat := r.stop - r.start

/-- The name of a region. -/
def name : Region → String
  | .charset => "Charset"
  | .program => "Program"

/-- A region ends where its capacity takes it. -/
theorem start_add_capacity (r : Region) : r.start + r.capacity = r.stop := by
  cases r <;> rfl

/-- A region lies within memory. -/
theorem stop_le (r : Region) : r.stop ≤ 4096 := by
  cases r <;> decide

end Region

/-- The bytes of a region. -/
def region (m : Memory) (r : Region) : List UInt8 := m.slice r.start r.stop

/-- Puts bytes at the start of a region, if they fit into it; the rest of the
region keeps its bytes. -/
def load (m : Memory) (r : Region) (data : List UInt8) : Except Fault Memory :=
  if data.length ≤ r.capacity then .ok (m.place r.start data)
  else .error (.programTooLarge data.length r.capacity)

/-- Fills a region with zeros. -/
def clear (m : Memory) (r : Region) : Memory := m.place r.start (List.replicate r.capacity 0)

/-- Every byte becomes `b`. -/
def fill (m : Memory) (b : UInt8) : Memory := ⟨m.bytes.map fun _ => b⟩

/-- Fills the memory with zeros, then puts the font back into its region. -/
def reset (m : Memory) : Memory := (m.fill 0).place Region.charset.start font

/-- The memory in record notation. -/
def describe (_ : Memory) : String := Text.openRecord "Mem" [("len", Text.decimal size)]

/-- A byte that is written is read at every address that wraps to its place, and nowhere
else. -/
theorem read_write (m : Memory) (a c : UInt16) (b : UInt8) :
    (m.write a b).read c = if wrap a = wrap c then b else m.read c := by
  simp only [read, write, Vector.getElem_set, Fin.ext_iff]

/-- **A fetch and two reads see the same bytes.** -/
theorem fetch_eq (m : Memory) (a : UInt16) :
    m.fetch a =
      if a.toNat + 1 < 4096 then some (Word.ofBytes (m.read a) (m.read (a + 1))) else none := by
  unfold fetch read wrap Word.address
  split
  · rename_i h
    have h1 : (a + 1).toNat = a.toNat + 1 := by
      simp only [UInt16.toNat_add, UInt16.toNat_one]
      omega
    simp only [h1, Nat.mod_eq_of_lt h, Nat.mod_eq_of_lt (Nat.lt_of_succ_lt h)]
  · rfl

/-- **Placed bytes lie one after the other,** and the others stay. -/
theorem getElem_place (m : Memory) (start : Nat) (data : List UInt8) (i : Nat) (hi : i < 4096) :
    (m.place start data).bytes[i] =
      if h : start ≤ i ∧ i < start + data.length then data[i - start] else m.bytes[i] := by
  induction data generalizing m start with
  | nil =>
    rw [dif_neg (by simp only [List.length_nil]; omega)]
    rfl
  | cons b bs ih =>
    rw [place]
    split
    · rw [ih]
      simp only [List.length_cons, Vector.getElem_set]
      by_cases h0 : start = i
      · subst h0
        rw [dif_neg (by omega), dif_pos (by omega), if_pos rfl]
        simp
      · by_cases h1 : start + 1 ≤ i ∧ i < start + 1 + bs.length
        · rw [dif_pos h1, dif_pos (by omega)]
          obtain ⟨k, rfl⟩ := Nat.exists_eq_add_of_le h1.1
          simp [show start + 1 + k - start = k + 1 by omega]
        · rw [dif_neg h1, dif_neg (by omega), if_neg h0]
    · symm
      exact dif_neg (by omega)

/-- A memory that is filled with zeros has none of its bytes left. -/
theorem fill_zero (m : Memory) : m.fill 0 = zero := by
  refine congrArg Memory.mk (Vector.ext fun i hi => ?_)
  rw [Vector.getElem_map, Vector.getElem_replicate]

/-- **A reset leaves nothing of the bytes before it.** -/
theorem reset_eq (m : Memory) : m.reset = fresh := by
  rw [reset, fill_zero]
  rfl

/-- A slice has the bytes of its range that lie in memory. -/
theorem length_slice (m : Memory) (start stop : Nat) :
    (m.slice start stop).length = min stop 4096 - start := by
  simp [slice]

/-- The bytes of a slice are those of the memory, from the start of the slice on. -/
theorem getElem_slice (m : Memory) (start stop i : Nat) (h : i < (m.slice start stop).length) :
    (m.slice start stop)[i] =
      m.bytes.get ⟨start + i, by rw [length_slice] at h; omega⟩ := by
  simp [slice]
  rfl

end Memory
end Chip8
