/-
# Where the program goes on

An instruction is executed with the program counter already past it, and those that lead
elsewhere set it, or move it by two, in arithmetic that wraps at `0x10000`.  Seen from the
machine before the cycle, the program goes on at one of these addresses, which are sums of
natural numbers:

| instruction | address |
| --- | --- |
| `jump`, `call` | the target |
| `jumpOffset` | the target and register 0 |
| `ret` | the address pushed last |
| `awaitKey`, while no key has come | its own |
| `skip`, if its test is met | the one after the next |
| any other, and these two otherwise | the next |

An instruction is fetched below `0xFFF` only, so there is room for every sum (`PcExact`).

What a test asks is said here once more, without the operations that answer it (`Meets`):
a key is held if the register names one of the sixteen keys and that key is held.  Each
test has an opposite, which is met exactly if it is not; so of two machines that differ
only in this, one skips and the other does not (`next_address_exact`).
-/

import Chip8.Proofs.Bounds
import Chip8.Proofs.Footprint

namespace Chip8

/-- The test that asks for the contrary. -/
def Test.opposite : Test → Test
  | .byteEq x b => .byteNe x b
  | .byteNe x b => .byteEq x b
  | .regEq x y => .regNe x y
  | .regNe x y => .regEq x y
  | .keyDown x => .keyUp x
  | .keyUp x => .keyDown x

namespace Machine

/-- Register `x` names one of the sixteen keys, and this key is held. -/
def NamesHeldKey (m : Machine) (x : Reg) : Prop :=
  ∃ key : Fin 16, (m.reg x).toNat = key ∧ m.keypad.held.get key = true

/-- The machine is as a test asks. -/
def Meets (m : Machine) : Test → Prop
  | .byteEq x b => m.reg x = b
  | .byteNe x b => m.reg x ≠ b
  | .regEq x y => m.reg x = m.reg y
  | .regNe x y => m.reg x ≠ m.reg y
  | .keyDown x => m.NamesHeldKey x
  | .keyUp x => ¬m.NamesHeldKey x

variable {m : Machine} {i : Instr}

/-- The key that a register names is held if there is such a key and it is held. -/
theorem isHeld_iff (m : Machine) (x : Reg) :
    m.keypad.isHeld (m.reg x).toNat = true ↔ m.NamesHeldKey x := by
  constructor
  · intro h
    by_cases hlt : (m.reg x).toNat < 16
    · rw [Keypad.isHeld, dif_pos hlt] at h
      exact ⟨⟨_, hlt⟩, rfl, h⟩
    · rw [m.keypad.isHeld_of_le (Nat.not_lt.1 hlt)] at h
      cases h
  · rintro ⟨key, hkey, hheld⟩
    rw [hkey, Keypad.isHeld, dif_pos key.isLt]
    exact hheld

/-- **A skip finds out whether its test is met.** -/
theorem holds_iff (m : Machine) (t : Test) : m.holds t = true ↔ m.Meets t := by
  cases t with
  | byteEq x b => exact beq_iff_eq
  | byteNe x b => exact bne_iff_ne
  | regEq x y => exact beq_iff_eq
  | regNe x y => exact bne_iff_ne
  | keyDown x => exact m.isHeld_iff x
  | keyUp x =>
    rw [Meets, ← m.isHeld_iff x, holds, Bool.not_eq_true', Bool.not_eq_true]

instance (m : Machine) (t : Test) : Decidable (m.Meets t) :=
  decidable_of_iff _ (m.holds_iff t)

/-- **Of two opposite tests exactly one is met.** -/
theorem meets_opposite (m : Machine) (t : Test) : m.Meets t.opposite ↔ ¬m.Meets t := by
  cases t with
  | byteEq x b => exact Iff.rfl
  | regEq x y => exact Iff.rfl
  | keyDown x => exact Iff.rfl
  | byteNe x b => exact Classical.not_not.symm
  | regNe x y => exact Classical.not_not.symm
  | keyUp x => exact Classical.not_not.symm

/-- The address at which the program goes on after an instruction at the program counter.
Without a return address `ret` fails, and the program does not go on. -/
def nextAddress (m : Machine) : Instr → Nat
  | .ret => (m.stack.getLastD 0).toNat
  | .jump target | .call target => target.val
  | .jumpOffset target => target.val + (m.reg 0).toNat
  | .awaitKey _ => if m.flags.pressed = none then m.pc.toNat else m.pc.toNat + 2
  | .skip t => if m.Meets t then m.pc.toNat + 4 else m.pc.toNat + 2
  | _ => m.pc.toNat + 2

/-- The stack has room for the call that is executed. -/
theorem Executes.room {target : Address} (h : m.Executes (.call target)) :
    m.advance.returns.length < stackDepth := by
  refine Nat.lt_of_not_le fun hfull => ?_
  have hok := h.execute_ok
  rw [result_execute] at hok
  simp only [if_pos hfull] at hok
  cases hok

/-- **The program counter after a cycle is the address worked out before it.** -/
theorem Executes.toNat_pc_tick (h : m.Executes i) :
    m.tick.machine.pc.toNat = m.nextAddress i := by
  have hfetched : m.pc.toNat + 1 < 4096 := pc_lt_of_instr? h.instr
  have hpast : m.advance.pc.toNat = m.pc.toNat + 2 := toNat_pc_advance (by omega)
  rw [h.machine_tick]
  show (m.advance.execute i).machine.pc.toNat = _
  rw [pc_execute]
  cases i with
  | jump target => exact target.toNat_toWord
  | call target =>
    simp only [h.room, if_true]
    exact target.toNat_toWord
  | jumpOffset target => exact toNat_offset target (m.reg 0)
  | ret =>
    have hok := h.execute_ok
    rw [result_execute] at hok
    cases hr : m.returns with
    | nil =>
      simp only [advance, hr, if_true] at hok
      cases hok
    | cons a returns => simp [nextAddress, stack, advance, hr]
  | skip t =>
    have htest : m.advance.holds t = true ↔ m.Meets t := m.holds_iff t
    simp only [nextAddress, htest]
    split
    · have hskip : (m.advance.pc + 2).toNat = m.advance.pc.toNat + 2 :=
        toNat_pc_advance (by omega)
      omega
    · exact hpast
  | awaitKey x =>
    have hown : m.advance.current = m.pc := m.current_advance
    have hkey : m.advance.flags.pressed = m.flags.pressed := rfl
    simp only [nextAddress, hown, hkey]
    cases m.flags.pressed with
    | none => rfl
    | some key => exact hpast
  | _ => exact hpast

/-- A skip cannot fail. -/
theorem executes_skip {t : Test} (hp : m.flags.paused = false)
    (hi : m.instr? = some (.skip t)) : m.Executes (.skip t) :=
  executes_of_ok hp hi rfl

/-- The word of an instruction at the program counter is that instruction. -/
theorem instr?_of_word? (h : m.word? = some i.encode) : m.instr? = some i := by
  rw [instr?, h, Option.bind_some, Instr.decode_encode]

/-- **The program goes on exactly where its instruction leads.**  For every instruction
whose word is at the program counter of a running machine, if it succeeds, the program
counter after it is the address that the machine before it shows, and no sum formed on the
way wraps.  If in another machine, with the same parts but for memory, the word at the
program counter is that of the opposite skip, then both succeed, and one goes on at the
next instruction and the other at the one after it. -/
theorem next_address_exact (m : Machine) (hp : m.flags.paused = false) :
    (∀ i : Instr, m.word? = some i.encode → m.tick.result = .ok () →
      m.tick.machine.pc.toNat = m.nextAddress i ∧ m.PcExact) ∧
    ∀ (t : Test) (s : Machine), { m with memory := s.memory } = s →
      m.word? = some (Instr.skip t).encode → s.word? = some (Instr.skip t.opposite).encode →
      m.tick.result = .ok () ∧ s.tick.result = .ok () ∧
        (m.tick.machine.pc.toNat = m.pc.toNat + 2 ∧ s.tick.machine.pc.toNat = m.pc.toNat + 4 ∨
          m.tick.machine.pc.toNat = m.pc.toNat + 4 ∧ s.tick.machine.pc.toNat = m.pc.toNat + 2) := by
  refine ⟨fun i hw hok => ?_, fun t s hs hm ho => ?_⟩
  · have hi : m.instr? = some i := instr?_of_word? hw
    have hx : m.Executes i := ⟨hp, hi, hok⟩
    have hfetched := pc_lt_of_instr? hi
    exact ⟨hx.toNat_pc_tick, pcExact_of_le (by omega)⟩
  · have hsp : s.flags.paused = false := hs ▸ hp
    have hmx : m.Executes (.skip t) := executes_skip hp (instr?_of_word? hm)
    have hsx : s.Executes (.skip t.opposite) := executes_skip hsp (instr?_of_word? ho)
    refine ⟨hmx.success, hsx.success, ?_⟩
    have hpc : s.pc = m.pc := by rw [← hs]
    have hmeets : s.Meets t.opposite ↔ ¬m.Meets t := by
      rw [s.meets_opposite, ← hs]
      exact Iff.rfl
    rw [hmx.toNat_pc_tick, hsx.toNat_pc_tick, nextAddress, nextAddress, hpc]
    by_cases hmet : m.Meets t
    · right
      exact ⟨if_pos hmet, if_neg fun h => hmeets.1 h hmet⟩
    · left
      exact ⟨if_neg hmet, if_pos (hmeets.2 hmet)⟩

/-- A machine at the last word of memory, a skip on the key that register 3 names.  Key 3
is held, but the register holds `0x13`. -/
def atLastWord (lowByte : UInt8) : Machine :=
  { HostCall.run (ofSeed 8) [.setKey 3 true] with
    memory := Memory.fresh.place 0xFFE [0xE3, lowByte]
    registers := .replicate 16 0x13
    pc := 0xFFE }

/-- No key has that number, so it is not held: the skip if it is not goes beyond the end of
memory by two, and the skip if it is stops there. -/
theorem next_address_exact_atLastWord :
    let m := atLastWord 0xA1
    let s := atLastWord 0x9E
    m.flags.paused = false ∧
      (m.word? = some (Instr.skip (.keyUp 3)).encode ∧ m.tick.result = .ok () ∧
        m.tick.machine.pc.toNat = 0x1002) ∧
      ({ m with memory := s.memory } = s ∧ s.word? = some (Instr.skip (.keyDown 3)).encode ∧
        s.tick.machine.pc.toNat = 0x1000) := by
  intro m s
  have hp : m.flags.paused = false := rfl
  have hsame : { m with memory := s.memory } = s := by simp only [m, s, atLastWord]
  have hm : m.word? = some (Instr.skip (.keyUp 3)).encode := by decide +kernel
  have hs : s.word? = some (Instr.skip (.keyDown 3)).encode := by decide +kernel
  obtain ⟨hnext, hpair⟩ := m.next_address_exact hp
  obtain ⟨hok, -, hone⟩ := hpair (.keyUp 3) s hsame hm hs
  have hend : m.tick.machine.pc.toNat = 0x1002 := by
    rw [(hnext _ hm hok).1]
    decide +kernel
  have hpc : m.pc.toNat = 0xFFE := rfl
  exact ⟨hp, ⟨hm, hok, hend⟩, hsame, hs, by omega⟩

end Machine
end Chip8
