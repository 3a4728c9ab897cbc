/-
# Loading bytes

Bytes are loaded to the start of a region if they fit into it.  Then they lie there one
after the other and every byte outside their range stays, also those of the region beyond
them (`Placed`); if they do not fit, nothing is loaded.  This fixes the memory afterwards:
there is one only that is as `Placed` says (`placed_iff`).

| region | from | bytes |
| --- | ---: | ---: |
| `charset` | `0x000` | 80 |
| `program` | `0x200` | 3584 |

Since bytes beyond a program stay, a shorter program that is loaded over a longer one does
not hide it.  What is left of the longer one shows, unless those bytes had been in memory
before (`place_place_eq_iff`).  A machine that loads a program is let run, and is otherwise
the same; one that refuses it is the same, and paused if it was (`load_exact_and_atomic`).
-/

import Chip8.Machine.Host

namespace Chip8
namespace Memory

variable {m after : Memory} {start : Nat} {data next : List UInt8}

/-- In the memory `after` the bytes `data` lie from `start` on, and every other byte is as
in `m`. -/
structure Placed (m after : Memory) (start : Nat) (data : List UInt8) : Prop where
  inside : ∀ k (h : k < data.length), after.bytes[start + k]? = some data[k]
  outside : ∀ a : Nat, a < start ∨ start + data.length ≤ a → after.bytes[a]? = m.bytes[a]?

/-- Two memories are equal if all their bytes are. -/
theorem eq_of_bytes (h : ∀ a : Nat, after.bytes[a]? = m.bytes[a]?) : after = m := by
  refine congrArg Memory.mk (Vector.ext fun a ha => ?_)
  have hbyte := h a
  rw [Vector.getElem?_eq_getElem ha, Vector.getElem?_eq_getElem ha] at hbyte
  exact Option.some.inj hbyte

/-- Bytes that are placed inside memory lie there, and the others stay. -/
theorem placed_place (m : Memory) (h : start + data.length ≤ 4096) :
    m.Placed (m.place start data) start data where
  inside k hk := by
    have hcell : start + k < 4096 := by omega
    rw [Vector.getElem?_eq_getElem hcell, getElem_place,
      dif_pos ⟨Nat.le_add_right start k, Nat.add_lt_add_left hk start⟩]
    simp only [Nat.add_sub_cancel_left]
  outside a ha := by
    by_cases hcell : a < 4096
    · rw [Vector.getElem?_eq_getElem hcell, Vector.getElem?_eq_getElem hcell, getElem_place,
        dif_neg (by omega)]
    · rw [Vector.getElem?_eq_none (Nat.not_lt.1 hcell),
        Vector.getElem?_eq_none (Nat.not_lt.1 hcell)]

/-- **There is one memory only in which the bytes are placed.** -/
theorem placed_iff (h : start + data.length ≤ 4096) :
    m.Placed after start data ↔ after = m.place start data := by
  constructor
  · intro hplaced
    refine eq_of_bytes fun a => ?_
    by_cases ha : a < start ∨ start + data.length ≤ a
    · rw [hplaced.outside a ha, (m.placed_place h).outside a ha]
    · obtain ⟨k, rfl⟩ := Nat.exists_eq_add_of_le (show start ≤ a by omega)
      have hk : k < data.length := by omega
      rw [hplaced.inside k hk, (m.placed_place h).inside k hk]
  · rintro rfl
    exact m.placed_place h

/-- **The bytes placed last hide those before them exactly if what is left of these was
there anyway.**  Beyond the second run the one memory shows the first run, the other what
was there. -/
theorem place_place_eq_iff (h : start + data.length ≤ 4096) (hn : start + next.length ≤ 4096) :
    (m.place start data).place start next = m.place start next ↔
      ∀ k (_ : k < data.length), next.length ≤ k → m.bytes[start + k]? = some data[k] := by
  have hfirst := m.placed_place h
  have hsecond := (m.place start data).placed_place hn
  have halone := m.placed_place hn
  constructor
  · intro heq k hk hleft
    have hout : start + k < start ∨ start + next.length ≤ start + k := by omega
    rw [← halone.outside _ hout, ← heq, hsecond.outside _ hout, hfirst.inside k hk]
  · intro hleft
    refine ((placed_iff hn).1 ⟨halone.inside, fun a ha => ?_⟩).symm
    rw [halone.outside a ha]
    by_cases hd : a < start ∨ start + data.length ≤ a
    · exact (hfirst.outside a hd).symm
    · obtain ⟨k, rfl⟩ := Nat.exists_eq_add_of_le (show start ≤ a by omega)
      have hk : k < data.length := by omega
      rw [hfirst.inside k hk, hleft k hk (by omega)]

/-- **A region takes the bytes that fit into it.** -/
theorem load_of_le (m : Memory) {r : Region} (h : data.length ≤ r.capacity) :
    ∃ memory, m.load r data = .ok memory ∧ m.Placed memory r.start data := by
  have hend : r.start + data.length ≤ 4096 := by
    have hregion := r.start_add_capacity
    have hstop := r.stop_le
    omega
  exact ⟨_, if_pos h, m.placed_place hend⟩

/-- A region refuses more bytes than it has room for, and names both numbers. -/
theorem load_of_lt (m : Memory) {r : Region} (h : r.capacity < data.length) :
    m.load r data = .error (.programTooLarge data.length r.capacity) :=
  if_neg (Nat.not_le.2 h)

/-- Data are refused exactly if they are longer than the region. -/
theorem exists_load_eq_error_iff (m : Memory) (r : Region) (data : List UInt8) :
    (∃ f, m.load r data = .error f) ↔ r.capacity < data.length := by
  constructor
  · rintro ⟨f, hf⟩
    refine Nat.lt_of_not_le fun h => ?_
    obtain ⟨memory, hok, -⟩ := m.load_of_le h
    rw [hok] at hf
    cases hf
  · intro h
    exact ⟨_, m.load_of_lt h⟩

end Memory

namespace Machine

variable {program next : List UInt8}

/-- A program is refused exactly if it is longer than 3584 bytes. -/
theorem exists_result_load_eq_error_iff (m : Machine) (program : List UInt8) :
    (∃ f, (m.load program).result = .error f) ↔ 3584 < program.length := by
  constructor
  · rintro ⟨f, hf⟩
    refine Nat.lt_of_not_le fun h => ?_
    rw [m.load_eq_ok h] at hf
    cases hf
  · intro h
    exact ⟨_, congrArg Outcome.result (m.load_eq_error h)⟩

/-- **Loading two programs is loading the second alone, exactly if nothing of the first
is left to see.** -/
theorem load_load_eq_iff (m : Machine) (h : program.length ≤ 3584) (hn : next.length ≤ 3584) :
    ((m.load program).machine.load next).machine = (m.load next).machine ↔
      ∀ k (_ : k < program.length), next.length ≤ k →
        m.memory.bytes[0x200 + k]? = some program[k] := by
  rw [← Memory.place_place_eq_iff (by omega) (by omega), load_eq_ok _ hn, load_eq_ok _ hn,
    load_eq_ok _ h]
  constructor
  · intro heq
    exact congrArg Machine.memory heq
  · intro heq
    simp only [heq]

/-- **Loading is exact and atomic.**  A machine refuses a program of more than 3584 bytes,
and only that; it names both numbers, and is as it was.  Any other program lies at `0x200`
afterwards; the other bytes of memory stay, the machine is let run, and no other part
changes.  Of two programs, the first has left no trace exactly if its bytes beyond the
length of the second were in memory before, so in any case if it is not the longer one.
Either region of a memory takes bytes in the same way, relative to its range. -/
theorem load_exact_and_atomic (m : Machine) :
    (∀ program : List UInt8,
      ((∃ f, (m.load program).result = .error f) ↔ 3584 < program.length) ∧
      (3584 < program.length →
        (m.load program).result = .error (.programTooLarge program.length 3584) ∧
          (m.load program).machine = m) ∧
      (program.length ≤ 3584 →
        (m.load program).result = .ok () ∧
          m.memory.Placed (m.load program).machine.memory 0x200 program ∧
          (m.load program).machine = { m with
            memory := (m.load program).machine.memory
            flags := { m.flags with paused := false } })) ∧
    (∀ program next : List UInt8, program.length ≤ 3584 → next.length ≤ 3584 →
      (((m.load program).machine.load next).machine = (m.load next).machine ↔
        ∀ k (_ : k < program.length), next.length ≤ k →
          m.memory.bytes[0x200 + k]? = some program[k]) ∧
      (program.length ≤ next.length →
        ((m.load program).machine.load next).machine = (m.load next).machine)) ∧
    ∀ (r : Memory.Region) (data : List UInt8),
      ((∃ f, m.memory.load r data = .error f) ↔ r.capacity < data.length) ∧
      (r.capacity < data.length →
        m.memory.load r data = .error (.programTooLarge data.length r.capacity)) ∧
      (data.length ≤ r.capacity →
        ∃ memory, m.memory.load r data = .ok memory ∧ m.memory.Placed memory r.start data) := by
  refine ⟨fun program => ⟨m.exists_result_load_eq_error_iff program, fun h => ?_, fun h => ?_⟩,
    fun program next h hn => ⟨m.load_load_eq_iff h hn, fun hle => ?_⟩,
    fun r data => ⟨m.memory.exists_load_eq_error_iff r data, m.memory.load_of_lt,
      m.memory.load_of_le⟩⟩
  · rw [m.load_eq_error h]
    exact ⟨rfl, rfl⟩
  · rw [m.load_eq_ok h]
    exact ⟨rfl, m.memory.placed_place (by omega), rfl⟩
  · refine (m.load_load_eq_iff h hn).2 fun k hk hleft => ?_
    exact absurd (Nat.le_trans hle hleft) (Nat.not_le.2 hk)

/-- One byte too many is refused.  A byte loaded over three leaves the other two to see,
and three bytes do not.  The font fits into its region, and no byte more. -/
theorem load_exact_and_atomic_fresh :
    let m := ofSeed 8
    let large : List UInt8 := List.replicate 3585 0xAA
    (3584 < large.length ∧ (m.load large).machine = m) ∧
      ((m.load [0x61, 0x05, 0x12]).result = .ok () ∧
        (m.load [0x61, 0x05, 0x12]).machine.memory.bytes[0x202]? = some 0x12) ∧
      ((m.load [0x61, 0x05, 0x12]).machine.load [0xF0]).machine ≠ (m.load [0xF0]).machine ∧
      ((m.load [0x61, 0x05, 0x12]).machine.load [0xF0, 0x0A, 0x00]).machine =
        (m.load [0xF0, 0x0A, 0x00]).machine ∧
      (∃ memory, m.memory.load .charset font = .ok memory) ∧
      m.memory.load .charset (font ++ [0x00]) = .error (.programTooLarge 81 80) := by
  intro m large
  obtain ⟨hone, htwo, hregion⟩ := m.load_exact_and_atomic
  have hlarge : 3584 < large.length := by
    rw [List.length_replicate]
    decide
  obtain ⟨hok, hplaced, -⟩ := (hone [0x61, 0x05, 0x12]).2.2 (by decide)
  have hleft : m.memory.bytes[0x200 + 2]? ≠ some 0x12 := by decide +kernel
  obtain ⟨hexact, -⟩ := htwo [0x61, 0x05, 0x12] [0xF0] (by decide) (by decide)
  obtain ⟨-, hcovered⟩ := htwo [0x61, 0x05, 0x12] [0xF0, 0x0A, 0x00] (by decide) (by decide)
  obtain ⟨memory, hfont, -⟩ := (hregion .charset font).2.2 (by decide)
  have hmore := (hregion .charset (font ++ [0x00])).2.1 (by decide)
  exact ⟨⟨hlarge, ((hone large).2.1 hlarge).2⟩, ⟨hok, hplaced.inside 2 (by decide)⟩,
    fun h => hleft (hexact.1 h 2 (by decide) (by decide)), hcovered (by decide),
    ⟨memory, hfont⟩, hmore⟩

end Machine
end Chip8
