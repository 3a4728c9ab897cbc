/-
# When a cycle fails

A cycle of a running machine fails in four cases, tried in this order:

| case | fault |
| --- | --- |
| the program counter is `0xFFF` or more | `pcOutOfBounds` |
| the word at the program counter is no instruction | `illegalInstruction` |
| the word is `2aaa` and sixteen return addresses are kept | `stackOverflow` |
| the word is `00ee` and no return address is kept | `stackUnderflow` |

`fault?` reads them off the machine before the cycle, from the two bytes at the
program counter and the number of return addresses, and executes nothing.  A
tick fails with just that fault (`tick_fault`), and then it has changed nothing:
the instruction has looked before it changed anything, and the program counter,
which had moved on, is put back.
-/

import Chip8.Instr.Encoding
import Chip8.Machine.Cycle
import Mathlib.Tactic.SplitIfs

namespace Chip8

/-- One word encodes a return. -/
theorem Instr.decode_eq_ret_iff {w : UInt16} : decode w = some .ret ↔ w = 0x00EE := by
  rw [decode_eq_some_iff, eq_comm]
  rfl

/-- The words whose first digit is 2 encode the calls. -/
theorem Instr.exists_decode_eq_call_iff {w : UInt16} :
    (∃ target, decode w = some (.call target)) ↔ w.toNat / 0x1000 = 2 := by
  have key (target : Address) :
      decode w = some (.call target) ↔ 0x2000 + target.val = w.toNat := by
    rw [decode_eq_some_iff, ← UInt16.toNat_inj, toNat_encode, code]
  constructor
  · rintro ⟨target, h⟩
    have := (key target).1 h
    omega
  · intro h
    exact ⟨Word.address w, (key _).2 (by simp only [Word.address]; omega)⟩

namespace Machine

/-- The fault of the machine's next cycle, if it fails. -/
def fault? (m : Machine) : Option Fault :=
  if 0xFFF ≤ m.pc.toNat then some (.pcOutOfBounds m.pc)
  else
    let word := Word.ofBytes (m.memory.read m.pc) (m.memory.read (m.pc + 1))
    if Instr.decode word = none then some (.illegalInstruction m.pc word)
    else if word.toNat / 0x1000 = 2 ∧ 16 ≤ m.stack.length then some (.stackOverflow m.pc)
    else if word = 0x00EE ∧ m.stack = [] then some (.stackUnderflow m.pc)
    else none

/-- The word of the next cycle is made of two reads, unless its second byte would lie beyond
memory. -/
theorem word?_eq (m : Machine) :
    m.word? =
      if 0xFFF ≤ m.pc.toNat then none
      else some (Word.ofBytes (m.memory.read m.pc) (m.memory.read (m.pc + 1))) := by
  rw [word?, Memory.fetch_eq]
  by_cases h : 0xFFF ≤ m.pc.toNat
  · rw [if_pos h, if_neg (by omega)]
  · rw [if_neg h, if_pos (by omega)]

/-- Whether an instruction succeeds is a matter of the return addresses alone. -/
theorem result_execute (m : Machine) (i : Instr) :
    (m.execute i).result =
      match i with
      | .call _ =>
        if stackDepth ≤ m.returns.length then .error (.stackOverflow m.current) else .ok ()
      | .ret => if m.returns = [] then .error (.stackUnderflow m.current) else .ok ()
      | _ => .ok () := by
  cases i with
  | call target =>
    simp only [execute, callAt]
    by_cases h : stackDepth ≤ m.returns.length
    · rw [if_neg (Nat.not_lt.2 h), if_pos h]
      rfl
    · rw [if_pos (Nat.lt_of_not_le h), if_neg h]
      rfl
  | ret =>
    simp only [execute, ret]
    cases m.returns <;> rfl
  | jump target => exact result_jumpTo m target.toWord
  | _ => rfl

/-- Counting the cycle, or putting the program counter back, does not change the result. -/
theorem result_perform (m : Machine) (i : Instr) :
    (m.perform i).result = (m.advance.execute i).result := by
  cases h : (m.advance.execute i).result with
  | ok u => exact (perform_of_ok h).1
  | error f => exact (perform_of_error h).1

/-- A word that is an instruction fails only if it is a call with no room for a
return address or a return without one. -/
theorem result_interpret (m : Machine) (word : UInt16) :
    (m.interpret word).result =
      if Instr.decode word = none then .error (.illegalInstruction m.pc word)
      else if word.toNat / 0x1000 = 2 ∧ 16 ≤ m.stack.length then .error (.stackOverflow m.pc)
      else if word = 0x00EE ∧ m.stack = [] then .error (.stackUnderflow m.pc)
      else .ok () := by
  simp only [← Instr.exists_decode_eq_call_iff, ← Instr.decode_eq_ret_iff, stack_eq_nil_iff,
    length_stack, interpret]
  cases hi : Instr.decode word with
  | none => rw [if_pos rfl]; rfl
  | some i =>
    rw [if_neg (Option.some_ne_none i), result_perform, result_execute, current_advance]
    cases i with
    | call target => by_cases h : 16 ≤ m.returns.length <;> simp [advance, stackDepth, h]
    | ret => by_cases h : m.returns = [] <;> simp [advance, h]
    | _ => simp

/-- A cycle fails with the fault that the machine shows before it. -/
theorem result_step (m : Machine) : m.step.result = m.fault?.elim (.ok ()) .error := by
  rw [step, word?_eq, fault?]
  by_cases hp : 0xFFF ≤ m.pc.toNat
  · rw [if_pos hp, if_pos hp]
    rfl
  · rw [if_neg hp, if_neg hp]
    simp only [Outcome.after, result_interpret]
    split_ifs <;> rfl

/-- **A tick of a running machine fails with the fault that the machine shows,**
and with no other; a paused machine does not fail.  A tick that fails leaves
every part of the machine as it was. -/
theorem tick_fault (m : Machine) :
    m.tick.result = (if m.flags.paused then .ok () else m.fault?.elim (.ok ()) .error) ∧
      (m.tick.result = .ok () ∨ m.tick.machine = m) := by
  refine ⟨?_, ?_⟩
  · cases hp : m.flags.paused with
    | true => rw [tick_of_paused hp]; rfl
    | false => rw [(tick_of_running hp).1, result_step]; rfl
  · cases hr : m.tick.result with
    | ok u => exact .inl rfl
    | error f => exact .inr (machine_tick_of_error hr)

end Machine
end Chip8
