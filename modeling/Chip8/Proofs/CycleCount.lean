/-
# How many cycles a run executes

Running `n` cycles is the same as ticking `n` times, but for the end: the first tick
that fails ends the run, and once the machine is paused no tick does anything.  So the
run consists of `k` ticks that execute an instruction each, and then of one of these:

| result | `k` | the machine |
| --- | --- | --- |
| success | `n` | any |
| success | less than `n` | paused, from the start or by a jump to itself |
| failure | less than `n` | running, and its next tick fails with that fault |

This is settled by one induction along the ticks (`exists_stopsAfter`), with a case for
each way in which a tick comes out.  The count of cycles grows by the instructions that
are executed, in a run and in every session without a reset (`cycle_run`).
-/

import Chip8.Proofs.Stuck
import Chip8.Proofs.Timeline

namespace Chip8

/-- The count of cycles goes up exactly, as long as there is room. -/
theorem toNat_add_ofNat {c : UInt64} {k : Nat} (h : c.toNat + k < UInt64.size) :
    (c + UInt64.ofNat k).toNat = c.toNat + k := by
  rw [UInt64.toNat_add, UInt64.toNat_ofNat']
  simp only [UInt64.size] at h
  omega

/-! ## The count of cycles -/

namespace Machine

variable {m : Machine}

/-- Loading a program counts no cycle. -/
theorem cycle_load (m : Machine) (program : List UInt8) :
    (m.load program).machine.cycle = m.cycle := by
  rw [machine_load_eq]

/-- Moving a key counts no cycle. -/
theorem cycle_setKey (m : Machine) (key : Nat) (pressed : Bool) :
    (m.setKey key pressed).machine.cycle = m.cycle := by
  rw [machine_setKey_eq]

/-- A call that runs no cycle counts none, unless it resets the machine. -/
theorem cycle_apply (m : Machine) {c : HostCall} (hm : c.isMoment = true) (htick : c ≠ .tick)
    (hreset : c ≠ .reset) : (c.apply m).machine.cycle = m.cycle := by
  cases c with
  | load program => exact m.cycle_load program
  | loadFile contents =>
    cases contents with
    | error e => rfl
    | ok program => exact m.cycle_load program
  | setKey key pressed => exact m.cycle_setKey key pressed
  | tick => exact absurd rfl htick
  | reset => exact absurd rfl hreset
  | singlestep | multistep n | frame n => cases hm
  | _ => rfl

/-- A tick counts the instruction that it executes. -/
theorem cycle_tick (m : Machine) :
    m.tick.machine.cycle = m.cycle + UInt64.ofNat m.executed?.toList.length := by
  cases hx : m.executed? with
  | some i =>
    have hi : m.Executes i := executed?_eq_some_iff.1 hx
    rw [hi.machine_tick]
    rfl
  | none =>
    rw [machine_tick_of_executed?_eq_none hx]
    exact (UInt64.add_zero m.cycle).symm

/-- **The count of cycles is the number of instructions executed,** in every session
that does not reset the machine. -/
theorem cycle_run (m : Machine) {acts : List HostCall}
    (hacts : ∀ c ∈ acts, c.isMoment = true ∧ c ≠ .reset) :
    (HostCall.run m acts).cycle =
      m.cycle + UInt64.ofNat (HostCall.executed m acts).length := by
  induction acts generalizing m with
  | nil => exact (UInt64.add_zero m.cycle).symm
  | cons c acts ih =>
    have hc : (c.apply m).machine.cycle =
        m.cycle + UInt64.ofNat (c.executed? m).toList.length := by
      obtain ⟨hm, hreset⟩ := hacts c List.mem_cons_self
      by_cases htick : c = .tick
      · subst htick
        exact m.cycle_tick
      · have hnone : c.executed? m = none := by
          cases c with
          | tick => exact absurd rfl htick
          | _ => rfl
        rw [m.cycle_apply hm htick hreset, hnone]
        exact (UInt64.add_zero m.cycle).symm
    have hrest := ih (c.apply m).machine fun d hd => hacts d (List.mem_cons_of_mem c hd)
    rw [HostCall.executed, List.length_append, UInt64.ofNat_add, ← UInt64.add_assoc, ← hc, ← hrest]
    rfl

/-- Running `n` cycles counts the instructions that it executes. -/
theorem cycle_multistep (m : Machine) (n : Nat) :
    (m.multistep n).machine.cycle =
      m.cycle + UInt64.ofNat (HostCall.executed m (m.ticks n)).length := by
  rw [← HostCall.run_ticks]
  refine m.cycle_run fun c hc => ?_
  obtain rfl := HostCall.eq_tick_of_mem_ticks hc
  exact ⟨rfl, nofun⟩

/-! ## Where a run stops -/

/-- The machine after `k` ticks. -/
def ticked (m : Machine) : Nat → Machine
  | 0 => m
  | k + 1 => m.tick.machine.ticked k

/-- Each of the first `k` ticks executes an instruction. -/
def Runs (m : Machine) (k : Nat) : Prop := ∀ j < k, ∃ i, (m.ticked j).Executes i

/-- Running `n` cycles executes `k` instructions and stops there: because that is all,
because the machine is paused, or because the next cycle fails. -/
structure StopsAfter (m : Machine) (n k : Nat) : Prop where
  le : k ≤ n
  runs : m.Runs k
  executed : (HostCall.executed m (m.ticks n)).length = k
  machine : (m.multistep n).machine = m.ticked k
  success : (m.multistep n).result = .ok () →
    k = n ∨ k < n ∧ (m.ticked k).flags.paused = true
  failure : ∀ f, (m.multistep n).result = .error f →
    k < n ∧ (m.ticked k).flags.paused = false ∧ (m.ticked k).tick.result = .error f

/-- **A tick finds the machine paused, executes an instruction, or fails.** -/
theorem tick_trichotomy (m : Machine) :
    m.flags.paused = true ∨ (∃ i, m.Executes i) ∨ ∃ f, m.tick.result = .error f := by
  cases hp : m.flags.paused with
  | true => exact .inl rfl
  | false =>
    cases hr : m.tick.result with
    | error f => exact .inr (.inr ⟨f, rfl⟩)
    | ok u =>
      obtain ⟨f, hf, -⟩ | ⟨i, hi, -⟩ := m.step_cases
      · rw [(tick_of_running hp).1, hf] at hr
        cases hr
      · exact .inr (.inl ⟨i, hp, hi, hr⟩)

/-- A tick that fails is one of a machine that runs. -/
theorem running_of_result_tick {f : Fault} (h : m.tick.result = .error f) :
    m.flags.paused = false := by
  cases hp : m.flags.paused with
  | false => rfl
  | true =>
    rw [tick_of_paused hp] at h
    cases h

/-- No tick needs to execute anything for a run of none. -/
theorem runs_zero (m : Machine) : m.Runs 0 := fun _ hj => (Nat.not_lt_zero _ hj).elim

/-- A run of one more tick begins with a tick that executes an instruction. -/
theorem runs_succ {i : Instr} {k : Nat} (hi : m.Executes i) (h : m.tick.machine.Runs k) :
    m.Runs (k + 1)
  | 0, _ => ⟨i, hi⟩
  | j + 1, hj => h j (Nat.lt_of_succ_lt_succ hj)

/-- Nothing is executed while the machine is paused. -/
theorem stopsAfter_zero_of_paused (h : m.flags.paused = true) (n : Nat) : m.StopsAfter n 0 := by
  have hexecuted : HostCall.executed m (m.ticks n) = [] := by
    have hnone : m.executed? = none := by rw [executed?, h]; rfl
    induction n with
    | zero => rfl
    | succ n ih =>
      rw [HostCall.executed_ticks_succ, hnone, tick_of_paused h]
      exact ih
  have hrun := multistep_of_paused h n
  refine ⟨Nat.zero_le n, m.runs_zero, congrArg List.length hexecuted, by rw [hrun]; rfl, ?_, ?_⟩
  · intro _
    cases n with
    | zero => exact .inl rfl
    | succ n => exact .inr ⟨Nat.succ_pos n, h⟩
  · intro f hf
    rw [hrun] at hf
    cases hf

/-- If the first cycle fails, no instruction is executed. -/
theorem stopsAfter_zero_of_error {f : Fault} (h : m.tick.result = .error f) (n : Nat) :
    m.StopsAfter (n + 1) 0 := by
  have hnone : m.executed? = none := by
    rw [executed?, fault?_of_result_tick h, Option.isSome_some, Bool.or_true]
    rfl
  have hexecuted : HostCall.executed m (m.ticks (n + 1)) = [] := by
    rw [HostCall.executed_ticks_succ, hnone, h]
    rfl
  have hrun : m.multistep (n + 1) = ⟨.error f, m, m.tick.log⟩ := by
    rw [multistep_succ, h, machine_tick_of_error h]
  refine ⟨Nat.zero_le _, m.runs_zero, congrArg List.length hexecuted, by rw [hrun]; rfl, ?_, ?_⟩
  · intro hok
    rw [hrun] at hok
    cases hok
  · intro g hg
    rw [hrun] at hg
    obtain rfl := Except.error.inj hg
    exact ⟨Nat.succ_pos n, running_of_result_tick h, h⟩

/-- A run that executes an instruction goes on from there. -/
theorem Executes.multistep_eq {i : Instr} (hi : m.Executes i) (n : Nat) :
    m.multistep (n + 1) = (m.tick.machine.multistep n).after m.tick.log := by
  rw [multistep_succ, hi.success]

/-- The first instruction of a run is the one that the first tick executes. -/
theorem Executes.executed_ticks_eq {i : Instr} (hi : m.Executes i) (n : Nat) :
    HostCall.executed m (m.ticks (n + 1)) =
      i :: HostCall.executed m.tick.machine (m.tick.machine.ticks n) := by
  rw [HostCall.executed_ticks_succ, executed?_eq_some_iff.2 hi, hi.success]
  rfl

/-- An instruction in front is counted. -/
theorem StopsAfter.succ {i : Instr} {n k : Nat} (hi : m.Executes i)
    (h : m.tick.machine.StopsAfter n k) : m.StopsAfter (n + 1) (k + 1) := by
  have hrun := hi.multistep_eq n
  refine ⟨Nat.succ_le_succ h.le, runs_succ hi h.runs, ?_, ?_, fun hok => ?_, fun f hf => ?_⟩
  · rw [hi.executed_ticks_eq, List.length_cons, h.executed]
  · rw [hrun]
    exact h.machine
  · rw [hrun] at hok
    obtain hall | ⟨hlt, hpaused⟩ := h.success hok
    · exact .inl (congrArg (· + 1) hall)
    · exact .inr ⟨Nat.succ_lt_succ hlt, hpaused⟩
  · rw [hrun] at hf
    obtain ⟨hlt, hfails⟩ := h.failure f hf
    exact ⟨Nat.succ_lt_succ hlt, hfails⟩

/-- **A run of cycles stops somewhere,** and no instruction is executed beyond that. -/
theorem exists_stopsAfter (m : Machine) (n : Nat) : ∃ k, m.StopsAfter n k := by
  induction n generalizing m with
  | zero => exact ⟨0, Nat.le_refl 0, m.runs_zero, rfl, rfl, fun _ => .inl rfl, nofun⟩
  | succ n ih =>
    obtain hp | ⟨i, hi⟩ | ⟨f, hf⟩ := m.tick_trichotomy
    · exact ⟨0, stopsAfter_zero_of_paused hp (n + 1)⟩
    · obtain ⟨k, hk⟩ := ih m.tick.machine
      exact ⟨k + 1, hk.succ hi⟩
    · exact ⟨0, stopsAfter_zero_of_error hf n⟩

/-- A run that succeeds and leaves the machine running has executed every cycle. -/
theorem StopsAfter.eq_of_running {n k : Nat} (h : m.StopsAfter n k)
    (hok : (m.multistep n).result = .ok ())
    (hrunning : (m.multistep n).machine.flags.paused = false) : k = n := by
  obtain hall | ⟨-, hpaused⟩ := h.success hok
  · exact hall
  · rw [h.machine] at hrunning
    exact absurd (hrunning.symm.trans hpaused) Bool.false_ne_true

/-- The last of several ticks comes after the others. -/
theorem ticked_succ (m : Machine) (k : Nat) : m.ticked (k + 1) = (m.ticked k).tick.machine := by
  induction k generalizing m with
  | zero => rfl
  | succ k ih => exact ih m.tick.machine

/-- A machine that is paused after `k` instructions was so from the start, or the last of
them has jumped to itself. -/
theorem Runs.exists_jump_of_paused {k : Nat} (h : m.Runs k)
    (hp : (m.ticked k).flags.paused = true) :
    k = 0 ∧ m.flags.paused = true ∨
      ∃ j target, k = j + 1 ∧ (m.ticked j).Executes (.jump target) ∧
        target.toWord = (m.ticked j).pc := by
  cases k with
  | zero => exact .inl ⟨rfl, hp⟩
  | succ j =>
    obtain ⟨i, hi⟩ := h j (Nat.lt_succ_self j)
    rw [ticked_succ] at hp
    obtain ⟨target, rfl, hself⟩ := hi.exists_jump_of_paused hp
    exact .inr ⟨j, target, rfl, hi, hself⟩

/-- **Running `a + b` cycles is running `a` and, unless one of them fails, `b` more.** -/
theorem multistep_add (m : Machine) (a b : Nat) :
    m.multistep (a + b) =
      match (m.multistep a).result with
      | .error _ => m.multistep a
      | .ok () => ((m.multistep a).machine.multistep b).after (m.multistep a).log := by
  induction a generalizing m with
  | zero =>
    rw [Nat.zero_add, multistep_zero]
    rfl
  | succ a ih =>
    rw [Nat.add_right_comm, multistep_succ, multistep_succ]
    cases m.tick.result with
    | error f => rfl
    | ok u =>
      simp only [ih m.tick.machine, Outcome.after]
      cases hr : (m.tick.machine.multistep a).result with
      | error f => simp only [hr]
      | ok v => simp only [List.append_assoc]

/-- **A run of cycles is exact and compositional.**  Running `a + b` cycles is running
`a` and then, unless that failed, `b`.  Running `n` executes `k ≤ n` instructions, one
in each of the first `k` ticks, counts `k` cycles and leaves the machine that those
ticks leave.  If it succeeds, `k` is `n`, or the machine is paused and either was so
from the start or has jumped to itself at last; if it fails, `k` is less than `n`, the
machine is running, and the fault is that of its next tick.  A frame has the result of
its cycles and leaves their machine with the timers one tick further. -/
theorem multistep_exact (m : Machine) :
    (∀ a b, m.multistep (a + b) =
      match (m.multistep a).result with
      | .error _ => m.multistep a
      | .ok () => ((m.multistep a).machine.multistep b).after (m.multistep a).log) ∧
    (∀ n, ∃ k ≤ n,
      (HostCall.executed m (m.ticks n)).length = k ∧ m.Runs k ∧
      (m.multistep n).machine = m.ticked k ∧
      (m.cycle.toNat + k < UInt64.size →
        (m.multistep n).machine.cycle.toNat = m.cycle.toNat + k) ∧
      match (m.multistep n).result with
      | .ok () =>
        k = n ∨
          k < n ∧ (m.multistep n).machine.flags.paused = true ∧
            (k = 0 ∧ m.flags.paused = true ∨
              ∃ j target, k = j + 1 ∧ (m.ticked j).Executes (.jump target) ∧
                target.toWord = (m.ticked j).pc)
      | .error f =>
        k < n ∧ (m.multistep n).machine.flags.paused = false ∧
          (m.ticked k).tick.result = .error f) ∧
    ∀ n, (m.frame n).result = (m.multistep n).result ∧
      (m.frame n).machine =
        { (m.multistep n).machine with timers := (m.multistep n).machine.timers.tick } := by
  refine ⟨m.multistep_add, fun n => ?_, fun n => ⟨rfl, rfl⟩⟩
  obtain ⟨k, hk⟩ := m.exists_stopsAfter n
  refine ⟨k, hk.le, hk.executed, hk.runs, hk.machine, fun hroom => ?_, ?_⟩
  · rw [cycle_multistep, hk.executed, toNat_add_ofNat hroom]
  · cases hr : (m.multistep n).result with
    | ok u =>
      obtain hall | ⟨hlt, hpaused⟩ := hk.success hr
      · exact .inl hall
      · have hstop : (m.multistep n).machine.flags.paused = true := by rwa [hk.machine]
        exact .inr ⟨hlt, hstop, hk.runs.exists_jump_of_paused hpaused⟩
    | error f =>
      obtain ⟨hlt, hrunning, hfails⟩ := hk.failure f hr
      exact ⟨hlt, by rwa [hk.machine], hfails⟩

end Machine
end Chip8
