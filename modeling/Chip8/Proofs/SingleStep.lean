/-
# Stepping a paused machine

A single step lifts the pause, ticks, and puts the pause back.  So it is the tick of the
machine with the pause lifted, up to the pause flag afterwards:

| the tick | after the single step |
| --- | --- |
| fails | the machine is as it was, the flag too |
| executes an instruction | the tick's machine, paused if it was before |
| executes a jump to itself | the tick's machine, paused |

A paused machine may be stepped as often as one likes.  As long as nothing fails and no
program halts, the pause that one step puts back is just the one that the next step lifts,
and `n` single steps do what `n` ticks do with the pause lifted throughout
(`RunsOn.leads_singlesteps`).  A halt would stop the ticks, though not the single steps.
-/

import Chip8.Proofs.SelfJump

namespace Chip8
namespace Machine

variable {m : Machine} {n : Nat}

/-- The first `n` ticks execute an instruction each, and none of these is a jump to itself. -/
def RunsOn (m : Machine) (n : Nat) : Prop :=
  ∀ k < n, ∃ i, (m.ticked k).Executes i ∧
    ∀ target, i = .jump target → target.toWord ≠ (m.ticked k).pc

/-- A run without a jump to itself is a run. -/
theorem RunsOn.runs (h : m.RunsOn n) : m.Runs n := fun k hk =>
  let ⟨i, hi, _⟩ := h k hk
  ⟨i, hi⟩

/-- A run goes on after its first tick. -/
theorem RunsOn.tail (h : m.RunsOn (n + 1)) : m.tick.machine.RunsOn n := fun k hk =>
  h (k + 1) (Nat.succ_lt_succ hk)

/-- A tick that executes an instruction other than a jump to itself leaves the machine
running. -/
theorem RunsOn.running (h : m.RunsOn (n + 1)) : m.tick.machine.flags.paused = false := by
  obtain ⟨i, hi, hother⟩ := h 0 (Nat.succ_pos n)
  refine Bool.eq_false_iff.2 fun hp => ?_
  obtain ⟨target, hjump, hself⟩ := Executes.exists_jump_of_paused hi hp
  exact hother target hjump hself

/-- Ticks that execute an instruction each succeed. -/
theorem Runs.leads_ticks (h : m.Runs n) : m.Leads (List.replicate n .tick) (m.ticked n) := by
  induction n generalizing m with
  | zero => exact .nil m
  | succ n ih =>
    obtain ⟨i, hi⟩ := h 0 (Nat.succ_pos n)
    have hfirst : (HostCall.tick.apply m).result = .ok .done :=
      congrArg (Except.map fun _ => Reply.done) hi.success
    have hrest : m.tick.machine.Runs n := fun k hk => h (k + 1) (Nat.succ_lt_succ hk)
    exact .cons hfirst (ih hrest)

/-- A single step has the result of a tick with the pause lifted. -/
theorem result_singlestep (m : Machine) :
    m.singlestep.result = (m.setPaused false).tick.result := rfl

/-- A single step puts the pause back, if there was one or the tick has set one. -/
theorem machine_singlestep (m : Machine) :
    m.singlestep.machine = (m.setPaused false).tick.machine.setPaused
      ((m.setPaused false).tick.machine.flags.paused || m.flags.paused) := rfl

/-- **A single step that fails leaves the machine as it was,** paused or not. -/
theorem machine_singlestep_of_error {f : Fault} (h : m.singlestep.result = .error f) :
    m.singlestep.machine = m := by
  have hlifted : (m.setPaused false).fault? = some f := fault?_of_result_tick h
  exact (singlestep_of_fault? (m := m) hlifted).2

/-- **Single steps of a paused machine are ticks with the pause lifted.**  Each step puts
the pause back, and the next one lifts it again. -/
theorem RunsOn.leads_singlesteps (h : (m.setPaused false).RunsOn n)
    (hp : m.flags.paused = true) :
    m.Leads (List.replicate n .singlestep) (((m.setPaused false).ticked n).setPaused true) := by
  induction n generalizing m with
  | zero =>
    have hback : (m.setPaused false).setPaused true = m := setPaused_eq_self hp
    show m.Leads [] ((m.setPaused false).setPaused true)
    rw [hback]
    exact .nil m
  | succ n ih =>
    obtain ⟨i, hi, -⟩ := h 0 (Nat.succ_pos n)
    have hfirst : (HostCall.singlestep.apply m).result = .ok .done :=
      congrArg (Except.map fun _ => Reply.done) (m.result_singlestep.trans hi.success)
    have hstep : m.singlestep.machine = (m.setPaused false).tick.machine.setPaused true := by
      rw [machine_singlestep, hp, Bool.or_true]
    have hlifted : m.singlestep.machine.setPaused false = (m.setPaused false).tick.machine := by
      rw [hstep, setPaused_setPaused]
      exact setPaused_eq_self h.running
    have hrest := ih (m := m.singlestep.machine) (hlifted ▸ h.tail) (by rw [hstep]; rfl)
    rw [hlifted] at hrest
    exact .cons hfirst hrest

/-- **A single step is a tick with the pause lifted.**  It has the result of that tick.  If
it succeeds, it leaves the machine that the tick leaves, paused also if it was before; a
jump to itself leaves it paused in any case.  If it fails, it leaves the machine as it was.
So if `n` ticks with the pause lifted execute an instruction each and none of them jumps to
itself, `n` single steps of the paused machine succeed as they do and leave the same machine,
but paused. -/
theorem singlestep_lifts_pause (m : Machine) :
    let s := m.setPaused false
    m.singlestep.result = s.tick.result ∧
      (m.singlestep.result = .ok () → m.singlestep.machine =
        s.tick.machine.setPaused (s.tick.machine.flags.paused || m.flags.paused)) ∧
      (∀ target, s.Executes (.jump target) → target.toWord = m.pc →
        m.singlestep.machine.flags.paused = true) ∧
      (∀ f, m.singlestep.result = .error f → m.singlestep.machine = m) ∧
      ∀ n, m.flags.paused = true → s.RunsOn n →
        s.Leads (List.replicate n .tick) (s.ticked n) ∧
          m.Leads (List.replicate n .singlestep) ((s.ticked n).setPaused true) := by
  intro s
  refine ⟨m.result_singlestep, fun _ => m.machine_singlestep, fun target hi hself => ?_,
    fun f hf => machine_singlestep_of_error hf, fun n hp h => ?_⟩
  · have hhalts : s.Halts := halts_iff.2 ⟨target, hi, hself⟩
    rw [machine_singlestep]
    show (s.tick.machine.flags.paused || m.flags.paused) = true
    rw [hhalts.paused, Bool.true_or]
  · exact ⟨h.runs.leads_ticks, h.leads_singlesteps hp⟩

/-- A paused machine about to set a register, call and return, and then to halt. -/
def pausedCaller : Machine :=
  HostCall.run (ofSeed 8)
    [.load [0x61, 0x05, 0x22, 0x06, 0x12, 0x04, 0x00, 0xEE], .togglePaused]

/-- It is stepped as far as the jump to itself.  With the pause lifted there, the single
step leaves the machine paused.  A machine without a program is left as it is. -/
theorem singlestep_lifts_pause_pausedCaller :
    let s := pausedCaller.setPaused false
    let halting := s.ticked 3
    (s.RunsOn 3 ∧ pausedCaller.Leads (List.replicate 3 .singlestep) (halting.setPaused true)) ∧
      (halting.flags.paused = false ∧ halting.singlestep.machine.flags.paused = true) ∧
      (ofSeed 8).singlestep.result = .error (.illegalInstruction 0x200 0x0000) ∧
      (ofSeed 8).singlestep.machine = ofSeed 8 := by
  intro s halting
  have hruns : s.RunsOn 3 := by
    intro k hk
    match k, hk with
    | 0, _ => exact ⟨.loadByte 1 5, by decide +kernel, nofun⟩
    | 1, _ => exact ⟨.call 0x206, by decide +kernel, nofun⟩
    | 2, _ => exact ⟨.ret, by decide +kernel, nofun⟩
  have hjump : (halting.setPaused false).Executes (.jump 0x204) := by decide +kernel
  have hfails : (ofSeed 8).singlestep.result = .error (.illegalInstruction 0x200 0x0000) :=
    (singlestep_of_fault? (by decide +kernel)).1
  obtain ⟨-, -, -, -, hsteps⟩ := pausedCaller.singlestep_lifts_pause
  obtain ⟨-, -, hhalts, -, -⟩ := halting.singlestep_lifts_pause
  obtain ⟨-, -, -, hatomic, -⟩ := (ofSeed 8).singlestep_lifts_pause
  exact ⟨⟨hruns, (hsteps 3 rfl hruns).2⟩,
    ⟨by decide +kernel, hhalts 0x204 hjump (by decide +kernel)⟩, hfails, hatomic _ hfails⟩

end Machine
end Chip8
