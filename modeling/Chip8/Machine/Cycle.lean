/-
# Cycles

A cycle fetches the word at the program counter, decodes it and executes the
instruction.  `step` is one cycle; the other functions are what a host uses:

| function | cycles |
| --- | --- |
| `tick` | one, none if the machine is paused |
| `singlestep` | one, even if the machine is paused |
| `multistep n` | `n`, fewer if one fails or the machine pauses |
| `frame n` | as `multistep n`, then one tick of the timers in any case |

A failed cycle leaves the machine where it was.
-/

import Chip8.Machine.Execute
import Chip8.Machine.Host

namespace Chip8
namespace Machine

/-- The word at the program counter. -/
def word? (m : Machine) : Option UInt16 := m.memory.fetch m.pc

/-- The instruction at the program counter. -/
def instr? (m : Machine) : Option Instr := m.word?.bind Instr.decode

/-- What is traced of a cycle: the word that was fetched, instruction or not. -/
def trace (m : Machine) (word : UInt16) : List Record :=
  if m.flags.tracing then [.executing m.cycle m.pc word] else []

/-- Executes an instruction with the program counter moved past it.  If it
succeeds, a cycle is counted; if it fails, the program counter is put back. -/
def perform (m : Machine) (i : Instr) : Outcome Unit :=
  let o := m.advance.execute i
  match o.result with
  | .ok () => { o with machine := { o.machine with cycle := o.machine.cycle + 1 } }
  | .error _ => { o with machine := { o.machine with pc := m.pc } }

/-- Executes the instruction that a word encodes. -/
def interpret (m : Machine) (word : UInt16) : Outcome Unit :=
  match Instr.decode word with
  | none => .failed (.illegalInstruction m.pc word) m
  | some i => m.perform i

/-- One cycle. -/
def step (m : Machine) : Outcome Unit :=
  match m.word? with
  | none => .failed (.pcOutOfBounds m.pc) m
  | some word => (m.interpret word).after (m.trace word)

/-- One cycle, unless the machine is paused. -/
def tick (m : Machine) : Outcome Unit :=
  if m.flags.paused then .done m
  else
    let o := m.step
    match o.result with
    | .ok () => o
    | .error f => { o with log := o.log ++ [.fault f] }

/-- The machine, paused or not. -/
def setPaused (m : Machine) (paused : Bool) : Machine :=
  { m with flags := { m.flags with paused := paused } }

/-- One cycle with the pause lifted; afterwards the machine is paused if it was
before or if the program halted. -/
def singlestep (m : Machine) : Outcome Unit :=
  let o := (m.setPaused false).tick
  { o with machine := o.machine.setPaused (o.machine.flags.paused || m.flags.paused) }

/-- Runs `n` cycles after others with the given log, the latest record first. -/
def runFrom (log : List Record) (m : Machine) : Nat → Outcome Unit
  | 0 => ⟨.ok (), m, log⟩
  | n + 1 =>
    if m.flags.paused then ⟨.ok (), m, log⟩
    else
      let o := m.tick
      match o.result with
      | .error f => ⟨.error f, o.machine, o.log.reverse ++ log⟩
      | .ok () => runFrom (o.log.reverse ++ log) o.machine n

/-- Runs `n` cycles, up to the first that fails. -/
def multistep (m : Machine) (n : Nat) : Outcome Unit :=
  let o := m.runFrom [] n
  { o with log := o.log.reverse }

/-- Runs the cycles of a frame, then the timers tick, even if a cycle failed. -/
def frame (m : Machine) (n : Nat) : Outcome Unit :=
  let o := m.multistep n
  let m := o.machine.tickTimers
  { o with machine := m, log := o.log ++ [m.timersRecord] }

/-- An instruction is found only where both of its bytes lie in memory. -/
theorem pc_lt_of_instr? {m : Machine} {i : Instr} (h : m.instr? = some i) :
    m.pc.toNat + 1 < 4096 := by
  unfold instr? word? Memory.fetch at h
  split at h
  · assumption
  · cases h

/-- An instruction that succeeds is counted as a cycle. -/
theorem perform_of_ok {m : Machine} {i : Instr} (h : (m.advance.execute i).result = .ok ()) :
    (m.perform i).result = .ok () ∧
      (m.perform i).machine = { (m.advance.execute i).machine with
        cycle := (m.advance.execute i).machine.cycle + 1 } := by
  rw [perform, h]
  exact ⟨rfl, rfl⟩

/-- **Putting the program counter back undoes a failed instruction.** -/
theorem perform_of_error {m : Machine} {i : Instr} {f : Fault}
    (h : (m.advance.execute i).result = .error f) :
    (m.perform i).result = .error f ∧ (m.perform i).machine = m := by
  rw [perform, h]
  refine ⟨rfl, ?_⟩
  rw [(execute_of_error h).1]
  rfl

/-- **A cycle fails and changes nothing, or it executes the instruction at the
program counter** and is counted. -/
theorem step_cases (m : Machine) :
    (∃ f, m.step.result = .error f ∧ m.step.machine = m) ∨
      ∃ i, m.instr? = some i ∧ (m.advance.execute i).result = .ok () ∧
        m.step.result = .ok () ∧
        m.step.machine = { (m.advance.execute i).machine with
          cycle := (m.advance.execute i).machine.cycle + 1 } := by
  unfold step instr?
  cases hw : m.word? with
  | none => exact .inl ⟨_, rfl, rfl⟩
  | some word =>
    simp only [Outcome.after, interpret, Option.bind_some]
    cases hi : Instr.decode word with
    | none => exact .inl ⟨_, rfl, rfl⟩
    | some i =>
      cases hx : (m.advance.execute i).result with
      | error f => exact .inl ⟨f, perform_of_error hx⟩
      | ok u => exact .inr ⟨i, rfl, hx, perform_of_ok hx⟩

/-- **A failed cycle leaves the machine as it was.** -/
theorem machine_step_of_error {m : Machine} {f : Fault} (h : m.step.result = .error f) :
    m.step.machine = m := by
  obtain ⟨_, _, hm⟩ | ⟨_, _, _, hr, _⟩ := m.step_cases
  · exact hm
  · rw [hr] at h
    cases h

/-- A paused machine lets a tick pass without a cycle. -/
theorem tick_of_paused {m : Machine} (h : m.flags.paused = true) : m.tick = .done m := by
  rw [tick, if_pos h]

/-- A tick of a machine that runs is a cycle; only the log can have more to tell. -/
theorem tick_of_running {m : Machine} (h : m.flags.paused = false) :
    m.tick.result = m.step.result ∧ m.tick.machine = m.step.machine := by
  rw [tick, if_neg (by simp [h])]
  cases hr : m.step.result with
  | ok u => simp [hr]
  | error f => simp [hr]

/-- **A failed tick leaves the machine as it was.** -/
theorem machine_tick_of_error {m : Machine} {f : Fault} (h : m.tick.result = .error f) :
    m.tick.machine = m := by
  cases hp : m.flags.paused with
  | true => rw [tick_of_paused hp, Outcome.done]
  | false =>
    obtain ⟨hr, hm⟩ := tick_of_running hp
    rw [hm, machine_step_of_error (hr.symm.trans h)]

/-- Of two settings of the pause flag the later one counts. -/
theorem setPaused_setPaused (m : Machine) (p q : Bool) :
    (m.setPaused p).setPaused q = m.setPaused q := rfl

/-- Setting the pause flag as it is changes nothing. -/
theorem setPaused_eq_self {m : Machine} {p : Bool} (h : m.flags.paused = p) :
    m.setPaused p = m := by
  subst h
  rfl

/-- A paused machine runs no cycle, however many it is asked for. -/
theorem runFrom_of_paused {m : Machine} (h : m.flags.paused = true) (log : List Record) (n : Nat) :
    m.runFrom log n = ⟨.ok (), m, log⟩ := by
  cases n <;> simp [runFrom, h]

/-- Running cycles puts their records before those that were there, and pays them no heed. -/
theorem runFrom_eq (m : Machine) (log : List Record) (n : Nat) :
    m.runFrom log n = { m.runFrom [] n with log := (m.runFrom [] n).log ++ log } := by
  induction n generalizing m log with
  | zero => rfl
  | succ n ih =>
    simp only [runFrom]
    split
    · rfl
    · split
      · simp
      · rw [ih, ih _ (_ ++ [])]
        simp

/-- Running no cycles does nothing. -/
theorem multistep_zero (m : Machine) : m.multistep 0 = ⟨.ok (), m, []⟩ := rfl

/-- A paused machine succeeds at any number of cycles by doing nothing. -/
theorem multistep_of_paused {m : Machine} (h : m.flags.paused = true) (n : Nat) :
    m.multistep n = ⟨.ok (), m, []⟩ := by
  rw [multistep, runFrom_of_paused h]
  rfl

/-- **Running `n + 1` cycles is a tick and, unless it fails, `n` more cycles.** -/
theorem multistep_succ (m : Machine) (n : Nat) :
    m.multistep (n + 1) =
      match m.tick.result with
      | .error f => ⟨.error f, m.tick.machine, m.tick.log⟩
      | .ok () => (m.tick.machine.multistep n).after m.tick.log := by
  by_cases hp : m.flags.paused = true
  · rw [tick_of_paused hp]
    simp [multistep, runFrom_of_paused hp, Outcome.after, Outcome.done]
  · simp only [multistep, runFrom, hp, if_false, Bool.false_eq_true]
    cases h : m.tick.result with
    | error f => simp
    | ok u =>
      simp only []
      rw [runFrom_eq]
      simp [Outcome.after]

end Machine
end Chip8
