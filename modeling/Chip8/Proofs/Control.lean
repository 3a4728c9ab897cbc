/-
# What an instruction does to the flow of control

The program counter, the return addresses, the host's flags and the count of
cycles after an instruction, each as one equation in the machine before it, whose
program counter has passed the instruction.  Only the instructions that the
equations name touch them:

| part | touched by |
| --- | --- |
| program counter | `jump`, `call`, `ret`, `skip`, `jumpOffset`, a waiting `awaitKey` |
| return addresses | `call`, `ret` |
| flags | a `jump` to itself, `awaitKey` |
| count of cycles | none |

The other instructions work on registers, memory, screen, timers and the random
generator.
-/

import Chip8.Machine.Cycle

namespace Chip8
namespace Machine

/-- An operator between registers changes registers and nothing else. -/
theorem combine_eq (m : Machine) (op : AluOp) (x y : Reg) :
    m.combine op x y = { m with registers := (m.combine op x y).registers } := by
  cases op <;> rfl

/-- Loading registers changes registers and nothing else. -/
theorem restore_eq (m : Machine) (x : Reg) :
    m.restore x = { m with registers := (m.restore x).registers } := rfl

/-- A skip moves the program counter and nothing else. -/
theorem skipIf_eq (m : Machine) (t : Test) :
    m.skipIf t = { m with pc := if m.holds t then m.pc + 2 else m.pc } := by
  unfold skipIf
  split <;> rfl

/-- A return takes the latest return address off the stack, if there is one. -/
theorem machine_ret (m : Machine) :
    m.ret.machine = { m with pc := m.returns.headD m.pc, returns := m.returns.tail } := by
  obtain ⟨_, _, _, returns, _, _, _, _, _, _, _⟩ := m
  cases returns <;> rfl

/-- A call puts a return address on the stack, if there is room. -/
theorem machine_callAt (m : Machine) (target : UInt16) :
    (m.callAt target).machine =
      if m.returns.length < stackDepth then
        { m with pc := target, returns := m.pc :: m.returns }
      else m := by
  unfold callAt
  split <;> rfl

/-- A jump sets the program counter, and pauses the machine at a jump to itself. -/
theorem machine_jumpTo (m : Machine) (target : UInt16) :
    (m.jumpTo target).machine = { m with
      pc := target
      flags := if target + 2 = m.pc then { m.flags with paused := true } else m.flags } := by
  unfold jumpTo
  split <;> rfl

/-- Waiting for a key changes registers, flags and program counter only. -/
theorem awaitKey_eq (m : Machine) (x : Reg) :
    m.awaitKey x = { m with
      registers := (m.awaitKey x).registers
      pc := if m.flags.pressed.isSome then m.pc else m.current
      flags :=
        if m.flags.pressed.isSome then { m.flags with pressed := none }
        else { m.flags with awaiting := some x.val } } := by
  unfold awaitKey
  cases m.flags.pressed with
  | some key => rfl
  | none => rfl

/-- Only calls and returns change the stack. -/
theorem returns_execute (m : Machine) (i : Instr) :
    (m.execute i).machine.returns =
      match i with
      | .call _ => if m.returns.length < stackDepth then m.pc :: m.returns else m.returns
      | .ret => m.returns.tail
      | _ => m.returns := by
  cases i with
  | call target => rw [execute, machine_callAt, apply_ite returns]
  | ret => rw [execute, machine_ret]
  | jump target => rw [execute, machine_jumpTo]
  | skip t => rw [execute, skipIf_eq, Outcome.done]
  | alu op x y => rw [execute, combine_eq, Outcome.done]
  | awaitKey x => rw [execute, awaitKey_eq, Outcome.done]
  | restore x => rw [execute, restore_eq, Outcome.done]
  | _ => rfl

/-- What each instruction makes of the program counter, once it has moved past the
instruction. -/
theorem pc_execute (m : Machine) (i : Instr) :
    (m.execute i).machine.pc =
      match i with
      | .jump target => target.toWord
      | .call target => if m.returns.length < stackDepth then target.toWord else m.pc
      | .ret => m.returns.headD m.pc
      | .skip t => if m.holds t then m.pc + 2 else m.pc
      | .jumpOffset a => a.toWord + (m.reg 0).toUInt16
      | .awaitKey _ => if m.flags.pressed.isSome then m.pc else m.current
      | _ => m.pc := by
  cases i with
  | call target => rw [execute, machine_callAt, apply_ite pc]
  | ret => rw [execute, machine_ret]
  | jump target => rw [execute, machine_jumpTo]
  | skip t => rw [execute, skipIf_eq, Outcome.done]
  | alu op x y => rw [execute, combine_eq, Outcome.done]
  | awaitKey x => rw [execute, awaitKey_eq, Outcome.done]
  | restore x => rw [execute, restore_eq, Outcome.done]
  | _ => rfl

/-- Only a jump to itself and the wait for a key change the flags. -/
theorem flags_execute (m : Machine) (i : Instr) :
    (m.execute i).machine.flags =
      match i with
      | .jump target =>
        if target.toWord + 2 = m.pc then { m.flags with paused := true } else m.flags
      | .awaitKey x =>
        if m.flags.pressed.isSome then { m.flags with pressed := none }
        else { m.flags with awaiting := some x.val }
      | _ => m.flags := by
  cases i with
  | call target => rw [execute, machine_callAt, apply_ite flags, ite_self]
  | ret => rw [execute, machine_ret]
  | jump target => rw [execute, machine_jumpTo]
  | skip t => rw [execute, skipIf_eq, Outcome.done]
  | alu op x y => rw [execute, combine_eq, Outcome.done]
  | awaitKey x => rw [execute, awaitKey_eq, Outcome.done]
  | restore x => rw [execute, restore_eq, Outcome.done]
  | _ => rfl

/-- The cycle is counted when the instruction is done. -/
theorem cycle_execute (m : Machine) (i : Instr) : (m.execute i).machine.cycle = m.cycle := by
  cases i with
  | call target => rw [execute, machine_callAt, apply_ite cycle, ite_self]
  | ret => rw [execute, machine_ret]
  | jump target => rw [execute, machine_jumpTo]
  | skip t => rw [execute, skipIf_eq, Outcome.done]
  | alu op x y => rw [execute, combine_eq, Outcome.done]
  | awaitKey x => rw [execute, awaitKey_eq, Outcome.done]
  | restore x => rw [execute, restore_eq, Outcome.done]
  | _ => rfl

end Machine
end Chip8
