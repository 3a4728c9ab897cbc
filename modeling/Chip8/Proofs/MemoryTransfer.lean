/-
# Bytes between registers and memory

Three instructions move bytes through the cells from the index register on.

| instruction | cell `k` places on | registers |
| --- | --- | --- |
| `save x` | register `k`, for `k ≤ x` | as before |
| `restore x` | as before | cell `k`, for `k ≤ x` |
| `decimal x` | digit `k` of register `x`, for `k < 3` | as before |

The cells wrap twice, the sum with the index register at `0x10000` and the address at
`0x1000`.  Since the one divides the other, the cell `k` places on is the one at
`(index + k) % 4096`, on either side of both ends (`read_writeRun`); and since a run is
shorter than memory, no two of its cells are the same, so that no byte overwrites
another.  None of the three moves the index register, which is why `restore x` finds
again what `save x` has stored.
-/

import Chip8.Proofs.AddressBus
import Chip8.Proofs.Footprint

namespace Chip8

namespace Memory

variable {m : Memory} {a c : UInt16} {bytes : List UInt8}

/-- A run of bytes leaves the cells alone on which none of them comes to lie. -/
theorem read_writeRun_of_ne (h : ∀ k < bytes.length, c.toNat % 4096 ≠ (a.toNat + k) % 4096) :
    (m.writeRun a bytes).read c = m.read c :=
  Machine.bytes_writeRun_of_ne fun k hk he => h k hk (congrArg Fin.val he.symm)

/-- **Byte `k` of a run is found `k` places on,** going round the end of memory.  The bytes
after the first do not come back to its cell. -/
theorem read_writeRun (hlen : bytes.length ≤ 4096) {k : Nat} (hk : k < bytes.length)
    (hc : c.toNat % 4096 = (a.toNat + k) % 4096) : (m.writeRun a bytes).read c = bytes[k] := by
  induction bytes generalizing m a k with
  | nil => exact (Nat.not_lt_zero k hk).elim
  | cons b bytes ih =>
    rw [List.length_cons] at hlen
    have hlt : k < bytes.length + 1 := hk
    have hnext : (a + 1).toNat % 4096 = (a.toNat + 1) % 4096 := by
      rw [UInt16.toNat_add, UInt16.toNat_one]
      omega
    cases k with
    | zero =>
      have hapart : ∀ k < bytes.length, c.toNat % 4096 ≠ ((a + 1).toNat + k) % 4096 := by
        intro k hk
        omega
      have hcell : wrap a = wrap c := wrap_eq_iff.2 hc.symm
      rw [writeRun, read_writeRun_of_ne hapart, read_write, if_pos hcell]
      rfl
    | succ k =>
      rw [writeRun]
      exact ih (by omega) (Nat.lt_of_succ_lt_succ hlt) (by omega)

end Memory

/-- The digits of a byte make up its value. -/
theorem decimalDigits_eq (b : UInt8) :
    ∃ d₀ d₁ d₂ : UInt8, decimalDigits b = [d₀, d₁, d₂] ∧
      d₀.toNat ≤ 9 ∧ d₁.toNat ≤ 9 ∧ d₂.toNat ≤ 9 ∧
      100 * d₀.toNat + 10 * d₁.toNat + d₂.toNat = b.toNat := by
  have hb : b.toNat < 256 := b.toNat_lt
  refine ⟨b / 100, b / 10 % 10, b % 10, rfl, ?_⟩
  simp only [UInt8.toNat_div, UInt8.toNat_mod, UInt8.reduceToNat]
  omega

namespace Machine

section Transfer

variable (m : Machine) (x : Reg)

/-- What `save x` stores is one byte for each register up to `x`. -/
theorem length_savedBytes : (m.registers.toList.take (x.val + 1)).length = x.val + 1 := by
  have hx := x.isLt
  rw [List.length_take, Vector.length_toList]
  omega

/-- **A register is found again in its cell.** -/
theorem read_execute_save {k : Reg} (hk : k ≤ x) {a : UInt16}
    (ha : a.toNat % 4096 = (m.index.toNat + k.val) % 4096) :
    (m.execute (.save x)).machine.memory.read a = m.reg k := by
  have hx := x.isLt
  have hlen := m.length_savedBytes x
  have hlt : k.val < (m.registers.toList.take (x.val + 1)).length := by
    rw [hlen]
    exact Nat.lt_succ_of_le hk
  refine (Memory.read_writeRun (by omega) hlt ha).trans ?_
  rw [List.getElem_take, Vector.getElem_toList]
  rfl

/-- The cells of no register are as before. -/
theorem read_execute_save_of_ne {a : UInt16}
    (ha : ∀ k ≤ x, a.toNat % 4096 ≠ (m.index.toNat + k.val) % 4096) :
    (m.execute (.save x)).machine.memory.read a = m.memory.read a := by
  refine Memory.read_writeRun_of_ne fun k hk => ?_
  have hkx : k < x.val + 1 := by rwa [m.length_savedBytes x] at hk
  have hk16 : k < 16 := by omega
  exact ha ⟨k, hk16⟩ (Nat.le_of_lt_succ hkx)

/-- **A cell is found again in its register.** -/
theorem reg_execute_restore (k : Reg) :
    (m.execute (.restore x)).machine.reg k =
      if k ≤ x then m.memory.read (m.index + UInt16.ofNat k.val) else m.reg k :=
  Vector.getElem_ofFn k.isLt

/-- The cell `k` places on has the address that is reached by adding. -/
theorem toNat_index_add (k : Nat) :
    (m.index + UInt16.ofNat k).toNat % 4096 = (m.index.toNat + k) % 4096 := by
  rw [UInt16.toNat_add, UInt16.toNat_ofNat']
  omega

/-- The three digits of a register are found in three cells. -/
theorem read_execute_decimal :
    ∃ d₀ d₁ d₂ : UInt8, d₀.toNat ≤ 9 ∧ d₁.toNat ≤ 9 ∧ d₂.toNat ≤ 9 ∧
      100 * d₀.toNat + 10 * d₁.toNat + d₂.toNat = (m.reg x).toNat ∧
      ∀ a, (m.execute (.decimal x)).machine.memory.read a =
        (m.memory.writeRun m.index [d₀, d₁, d₂]).read a := by
  rcases decimalDigits_eq (m.reg x) with ⟨d₀, d₁, d₂, hdigits, h₀, h₁, h₂, hvalue⟩
  refine ⟨d₀, d₁, d₂, h₀, h₁, h₂, hvalue, fun a => ?_⟩
  rw [← hdigits]
  rfl

end Transfer

/-- **Registers and memory exchange bytes at the index register, round both ends.**
For every machine, every register `x` and every value of the index register:
`save x` puts register `k ≤ x` into the cell `k` places on and changes no other cell and
no other part; `restore x` takes it from there and changes no register beyond `x` and no
other part; so a machine that has the memory and the index register of one that has done
`save x`, and any registers at all, gets those up to `x` back by `restore x`; and
`decimal x` puts the three decimal digits of register `x` into three cells, and changes
no other cell and no other part. -/
theorem bytes_between_registers_and_memory (m : Machine) (x : Reg) :
    let place (k : Nat) : Nat := (m.index.toNat + k) % 4096
    let saved := (m.execute (.save x)).machine
    let restored := (m.execute (.restore x)).machine
    let converted := (m.execute (.decimal x)).machine
    let digit (k : Nat) : Nat := (converted.memory.read (m.index + UInt16.ofNat k)).toNat
    ((m.execute (.save x)).result = .ok () ∧
      (∀ a : UInt16, ∀ k ≤ x, a.toNat % 4096 = place k → saved.memory.read a = m.reg k) ∧
      (∀ a : UInt16, (∀ k ≤ x, a.toNat % 4096 ≠ place k) →
        saved.memory.read a = m.memory.read a) ∧
      saved = { m with memory := saved.memory }) ∧
    ((m.execute (.restore x)).result = .ok () ∧
      (∀ a : UInt16, ∀ k ≤ x, a.toNat % 4096 = place k → restored.reg k = m.memory.read a) ∧
      (∀ k, x < k → restored.reg k = m.reg k) ∧
      restored = { m with registers := restored.registers }) ∧
    (∀ t : Machine, t.memory = saved.memory → t.index = saved.index →
      ∀ k ≤ x, (t.execute (.restore x)).machine.reg k = m.reg k) ∧
    ((m.execute (.decimal x)).result = .ok () ∧
      (digit 0 ≤ 9 ∧ digit 1 ≤ 9 ∧ digit 2 ≤ 9 ∧
        100 * digit 0 + 10 * digit 1 + digit 2 = (m.reg x).toNat) ∧
      (∀ a : UInt16, (∀ k < 3, a.toNat % 4096 ≠ place k) →
        converted.memory.read a = m.memory.read a) ∧
      converted = { m with memory := converted.memory }) := by
  intro place saved restored converted digit
  refine ⟨⟨rfl, fun a k hk ha => m.read_execute_save x hk ha,
      fun a ha => m.read_execute_save_of_ne x ha, rfl⟩,
    ⟨rfl, fun a k hk ha => ?_, fun k hk => ?_, rfl⟩, fun t hmemory hindex k hk => ?_,
    rfl, ?_, fun a ha => Memory.read_writeRun_of_ne ha, rfl⟩
  · have hcell : Memory.wrap (m.index + UInt16.ofNat k.val) = Memory.wrap a :=
      Memory.wrap_eq_iff.2 ((m.toNat_index_add k.val).trans ha.symm)
    rw [reg_execute_restore, if_pos hk, m.memory.read_congr hcell]
  · rw [reg_execute_restore, if_neg (Fin.not_le.2 hk)]
  · rw [reg_execute_restore, if_pos hk, hmemory, hindex]
    exact m.read_execute_save x hk (m.toNat_index_add k.val)
  · rcases m.read_execute_decimal x with ⟨d₀, d₁, d₂, h₀, h₁, h₂, hvalue, hrun⟩
    have hdigit (k : Nat) (hk : k < [d₀, d₁, d₂].length) :
        digit k = ([d₀, d₁, d₂][k]).toNat := by
      have hread := (hrun (m.index + UInt16.ofNat k)).trans
        (Memory.read_writeRun (by simp) hk (m.toNat_index_add k))
      exact congrArg UInt8.toNat hread
    have hzero : digit 0 = d₀.toNat := hdigit 0 (by simp)
    have hone : digit 1 = d₁.toNat := hdigit 1 (by simp)
    have htwo : digit 2 = d₂.toNat := hdigit 2 (by simp)
    rw [hzero, hone, htwo]
    exact ⟨h₀, h₁, h₂, hvalue⟩

/-- A machine with 7, 17, 27, .. in its registers, two cells before the end of memory. -/
def countsAcrossEnds : Machine :=
  { ofSeed 8 with index := 0xFFFE, registers := .ofFn fun k => UInt8.ofNat (10 * k.val + 7) }

/-- Four registers are stored in the last two cells and the first two, and are loaded
again into registers that have all been overwritten.  The digits of 157 end in cell 0. -/
theorem bytes_between_registers_and_memory_acrossEnds :
    let m := countsAcrossEnds
    let saved := (m.execute (.save 3)).machine
    let t := { saved with registers := .replicate 16 0xAA, pc := 0x300 }
    (saved.memory.read 0x001 = 37 ∧ saved.memory.read 0x002 = m.memory.read 0x002) ∧
    (t.memory = saved.memory ∧ t.index = saved.index ∧
      (t.execute (.restore 3)).machine.reg 3 = 37 ∧
      (t.execute (.restore 3)).machine.reg 4 = 0xAA) ∧
    (m.execute (.decimal 15)).machine.memory.read 0x001 = m.memory.read 0x001 := by
  intro m saved t
  obtain ⟨⟨-, hcell, hother, -⟩, -, hback, -⟩ := m.bytes_between_registers_and_memory 3
  obtain ⟨-, ⟨-, -, hbeyond, -⟩, -⟩ := t.bytes_between_registers_and_memory 3
  obtain ⟨-, -, -, -, -, hrest, -⟩ := m.bytes_between_registers_and_memory 15
  have hreg : m.reg 3 = 37 := by decide +kernel
  refine ⟨⟨(hcell 0x001 3 (by decide) (by decide +kernel)).trans hreg,
      hother 0x002 (by decide +kernel)⟩,
    ⟨rfl, rfl, (hback t rfl rfl 3 (by decide)).trans hreg, hbeyond 4 (by decide)⟩,
    hrest 0x001 (by decide +kernel)⟩

end Machine
end Chip8
