/-
# Nothing happens in a wait

In a session that gives no program to a machine that waits, the wait stays in place: at
every moment a register that waits, or a key that is kept for one, belongs to the
instruction at the program counter (`WaitInPlace.stateAt`).  A machine at such an
instruction can do nothing else (`onlyAwaits_of_instr`), so as long as the wait is not
over, it stays where it is:

| | while the wait lasts |
| --- | --- |
| program counter, return addresses | stay |
| a tick | executes the instruction that waits, or nothing in a pause |
| its result, its log | a success, no halt |

The condition on loading speaks of the calls of the session; that a load is met on the
timeline in the state in which the host made it, is `exists_getElem?_of_timeline`.  A file
that cannot be read is no program, and may be given at any time.
-/

import Chip8.Proofs.Subroutine
import Chip8.Proofs.TraceOfRun
import Chip8.Proofs.WaitPlace
import Mathlib.Data.Nat.Init

namespace Chip8
namespace HostCall

/-- The program that a call gives to the machine. -/
def program? : HostCall → Option (List UInt8)
  | .load program => some program
  | .loadFile (.ok program) => some program
  | _ => none

variable {m : Machine} {c d : HostCall} {calls : List HostCall} {n : Nat}

/-- A file that cannot be read changes nothing. -/
theorem machine_apply_of_unreadable (hc : c.isLoad = true) (hnone : c.program? = none) :
    (c.apply m).machine = m := by
  cases c with
  | load program => cases hnone
  | loadFile contents =>
    cases contents with
    | error e => rfl
    | ok program => cases hnone
  | _ => cases hc

/-- A call that gives a program to the machine is a call that loads. -/
theorem isLoad_of_program? {program : List UInt8} (h : c.program? = some program) :
    c.isLoad = true := by
  cases c with
  | load | loadFile => rfl
  | _ => cases h

/-! ## Loads on the timeline -/

/-- A call that loads a program is a moment, and no other call has such a moment. -/
theorem moments_of_isLoad (h : c ∈ d.moments m) (hc : c.isLoad = true) :
    c = d ∧ d.moments m = [d] := by
  cases d with
  | singlestep =>
    rw [moments] at h
    split at h
    · obtain rfl | rfl | rfl : c = assignPaused false ∨ c = .tick ∨ c = assignPaused true := by
        simpa using h
      all_goals cases hc
    · obtain rfl := List.mem_singleton.1 h
      cases hc
  | multistep n =>
    obtain rfl := eq_tick_of_mem_ticks h
    cases hc
  | frame n =>
    obtain h | h := List.mem_append.1 h
    · obtain rfl := eq_tick_of_mem_ticks h
      cases hc
    · obtain rfl := List.mem_singleton.1 h
      cases hc
  | _ => exact ⟨List.mem_singleton.1 h, rfl⟩

/-- **A load on the timeline is a call of the session,** made in the same state. -/
theorem exists_getElem?_of_timeline (hc : (timeline m calls)[n]? = some c)
    (hload : c.isLoad = true) :
    ∃ k, calls[k]? = some c ∧ stateAt m (timeline m calls) n = stateAt m calls k := by
  induction calls generalizing m n with
  | nil => cases hc
  | cons d calls ih =>
    rw [timeline] at hc ⊢
    by_cases hn : n < (d.moments m).length
    · rw [List.getElem?_append_left hn] at hc
      obtain ⟨rfl, hone⟩ := moments_of_isLoad (List.mem_of_getElem? hc) hload
      rw [hone, List.length_singleton] at hn
      obtain rfl : n = 0 := by omega
      exact ⟨0, rfl, rfl⟩
    · obtain ⟨j, rfl⟩ := Nat.exists_eq_add_of_le (Nat.not_lt.1 hn)
      rw [List.getElem?_append_right (Nat.le_add_right _ j), Nat.add_sub_cancel_left] at hc
      obtain ⟨k, hk, hstate⟩ := ih hc
      refine ⟨k + 1, hk, ?_⟩
      rw [stateAt_append_add, run_moments, hstate]
      rfl

/-- The states between the calls of a session are on its timeline. -/
theorem exists_stateAt_timeline (m : Machine) (calls : List HostCall) (k : Nat) :
    ∃ n, stateAt m (timeline m calls) n = stateAt m calls k := by
  refine ⟨(timeline m (calls.take k)).length, ?_⟩
  have hsplit : timeline m calls =
      timeline m (calls.take k) ++ timeline (run m (calls.take k)) (calls.drop k) := by
    rw [← timeline_append, List.take_append_drop]
  rw [hsplit, stateAt_append_of_le m _ (Nat.le_refl _),
    stateAt_of_length_le m _ (Nat.le_refl _), run_timeline, stateAt]

/-- Every program is given to the machine at a time when nothing waits for a key. -/
def LoadsIdle (m : Machine) (calls : List HostCall) : Prop :=
  ∀ k c program, calls[k]? = some c → c.program? = some program →
    (stateAt m calls k).flags.Idle

/-- What a session loads, it loads on its timeline in the same states. -/
theorem LoadsIdle.timeline (h : LoadsIdle m calls) : LoadsIdle m (timeline m calls) := by
  intro n c program hc hprogram
  obtain ⟨k, hk, hstate⟩ := exists_getElem?_of_timeline hc (isLoad_of_program? hprogram)
  rw [hstate]
  exact h k c program hk hprogram

end HostCall

namespace Machine

/-! ## At the instruction that waits -/

section Tick

variable {m : Machine} {x : Reg} {c : HostCall}

/-- The machine stands at the instruction that waits for a key for register `x`, and a
tick can do nothing but execute it: it succeeds, calls nothing, comes back from nothing
and does not halt. -/
structure OnlyAwaits (m : Machine) (x : Reg) : Prop where
  instr : m.instr? = some (.awaitKey x)
  executes : ∀ i, m.Executes i → i = .awaitKey x
  result : m.tick.result = .ok ()
  stack : m.tick.machine.stack = m.stack
  paused : m.tick.machine.flags.paused = m.flags.paused
  /-- All that the log may tell is that the instruction is executed. -/
  log : ∀ r ∈ m.tick.log, ∃ word, r = .executing m.cycle m.pc word

/-- The log of a tick that waits is the trace of its word. -/
theorem log_tick_awaitKey (hx : m.Executes (.awaitKey x)) :
    ∃ word, m.tick.log = m.trace word := by
  rcases Option.bind_eq_some_iff.1 hx.instr with ⟨word, hword, hdecode⟩
  have hquiet : (m.interpret word).log = [] := by
    rw [interpret, hdecode, log_perform, log_execute]
  have hwarning : warning m.step.result = [] := by
    rw [← (tick_of_running hx.running).1, hx.success]
    rfl
  refine ⟨word, ?_⟩
  rw [log_tick hx.running, hwarning, log_step, hword, List.append_nil]
  show m.trace word ++ (m.interpret word).log = m.trace word
  rw [hquiet, List.append_nil]

/-- **A machine at an instruction that waits can do nothing else,** paused or not. -/
theorem onlyAwaits_of_instr (hi : m.instr? = some (.awaitKey x)) : m.OnlyAwaits x := by
  have hexecutes (i : Instr) (h : m.Executes i) : i = .awaitKey x :=
    Option.some.inj (h.instr.symm.trans hi)
  cases hp : m.flags.paused with
  | true =>
    have htick := tick_of_paused hp
    refine ⟨hi, hexecutes, ?_, ?_, ?_, fun r hr => ?_⟩
    · rw [htick, Outcome.done]
    · rw [htick, Outcome.done]
    · rw [htick, Outcome.done]
    · rw [htick] at hr
      cases hr
  | false =>
    have hx := executes_awaitKey hp hi
    refine ⟨hi, hexecutes, hx.success, ?_, ?_, fun r hr => ?_⟩
    · rw [hx.machine_tick, stack, returns_execute]
      rfl
    · rw [hx.machine_tick, flags_execute]
      show (if _ then _ else _ : Flags).paused = _
      split <;> rfl
    · obtain ⟨word, hlog⟩ := log_tick_awaitKey hx
      rw [hlog, trace] at hr
      split at hr
      · exact ⟨word, List.mem_singleton.1 hr⟩
      · cases hr

/-- Only a reset takes return addresses from a machine at an instruction that waits. -/
theorem OnlyAwaits.stack_apply (h : m.OnlyAwaits x) (hm : c.isMoment = true)
    (hreset : c ≠ .reset) : (c.apply m).machine.stack = m.stack := by
  have hload (program : List UInt8) : (m.load program).machine.stack = m.stack :=
    congrArg List.reverse (returns_load m program)
  cases c with
  | load program => exact hload program
  | loadFile contents =>
    cases contents with
    | error e => rfl
    | ok program => exact hload program
  | setKey key pressed => exact congrArg List.reverse (returns_setKey m key pressed)
  | tick => exact h.stack
  | reset => exact (hreset rfl).elim
  | singlestep | multistep n | frame n => cases hm
  | _ => rfl

end Tick

/-! ## From moment to moment -/

section Moment

variable {m : Machine} {x : Reg} {p : UInt16} {key? : Option Nat} {c : HostCall}

/-- **Every moment leaves the wait in place,** the load of a program if there is no
wait. -/
theorem WaitInPlace.moment_of_loads (h : m.WaitInPlace) (hm : c.isMoment = true)
    (hw : c.assignsWait = false)
    (hload : ∀ program, c.program? = some program → m.flags.Idle) :
    (c.apply m).machine.WaitInPlace := by
  cases hprogram : c.program? with
  | some program => exact h.moment hm hw fun _ => hload program hprogram
  | none =>
    by_cases hc : c.isLoad = true
    · rwa [HostCall.machine_apply_of_unreadable hc hprogram]
    · exact h.moment hm hw fun hl => (hc hl).elim

/-- **A moment ends a wait or leaves the machine where it waits,** with the same return
addresses.  Nothing is loaded over the instruction, as there is a wait. -/
theorem WaitsAt.moment (h : m.WaitsAt p x key?) (hm : c.isMoment = true)
    (hw : c.assignsWait = false)
    (hload : ∀ program, c.program? = some program → m.flags.Idle) :
    (c.apply m).machine.flags.Idle ∨
      ∃ key?', (c.apply m).machine.WaitsAt p x key?' ∧
        (c.apply m).machine.stack = m.stack := by
  have honly := onlyAwaits_of_instr h.instr
  by_cases hreset : c = .reset
  · obtain rfl := hreset
    exact .inl ⟨rfl, rfl⟩
  · rcases passes_or_executes_or_reset (m := m) hm hw with hp | ⟨rfl, y, hy⟩ | hc
    · have hkept (hc : c.isLoad = true) :
          (c.apply m).machine.memory.fetch p = m.memory.fetch p := by
        cases hprogram : c.program? with
        | some program => exact (h.flags.not_idle (hload program hprogram)).elim
        | none => rw [HostCall.machine_apply_of_unreadable hc hprogram]
      exact .inr ⟨_, hp.waitsAt h hkept, honly.stack_apply hm hreset⟩
    · obtain rfl : y = x := Instr.awaitKey.inj (honly.executes _ hy)
      cases key? with
      | none => exact .inr ⟨none, h.pc ▸ (stalls_iff.2 ⟨hy, h.flags.2⟩).waitsAt, honly.stack⟩
      | some key =>
        left
        show m.tick.machine.flags.Idle
        rw [hy.machine_of_key h.flags.2]
        exact ⟨h.flags.1, rfl⟩
    · exact (hreset hc).elim

end Moment

/-! ## Through a session -/

section Session

variable {m : Machine} {acts : List HostCall} {i n : Nat} {p : UInt16} {x : Reg}
  {key? : Option Nat}

/-- **The wait is in place at every moment of a timeline.** -/
theorem WaitInPlace.stateAt (h : m.WaitInPlace)
    (hacts : ∀ c ∈ acts, c.isMoment = true ∧ c.assignsWait = false)
    (hloads : HostCall.LoadsIdle m acts) (n : Nat) :
    (HostCall.stateAt m acts n).WaitInPlace := by
  induction n with
  | zero => rwa [HostCall.stateAt_zero]
  | succ n ih =>
    obtain ⟨c, hc, hnext⟩ | hnext := HostCall.stateAt_succ_cases m acts n
    · obtain ⟨hm, hw⟩ := hacts c (List.mem_of_getElem? hc)
      rw [hnext]
      exact ih.moment_of_loads hm hw fun program => hloads n c program hc
    · rwa [hnext]

/-- **As long as a wait lasts, the machine stays where it waits,** with the same return
addresses. -/
theorem WaitsAt.stateAt_of_not_idle (h : (HostCall.stateAt m acts i).WaitsAt p x key?)
    (hacts : ∀ c ∈ acts, c.isMoment = true ∧ c.assignsWait = false)
    (hloads : HostCall.LoadsIdle m acts) (hin : i ≤ n)
    (hlasts : ∀ k, i ≤ k → k ≤ n → ¬(HostCall.stateAt m acts k).flags.Idle) :
    ∃ key?', (HostCall.stateAt m acts n).WaitsAt p x key?' ∧
      (HostCall.stateAt m acts n).stack = (HostCall.stateAt m acts i).stack := by
  induction n, hin using Nat.le_induction with
  | base => exact ⟨key?, h, rfl⟩
  | succ n hin ih =>
    obtain ⟨key?', hwait, hstack⟩ := ih fun k hik hkn => hlasts k hik (Nat.le_succ_of_le hkn)
    have hstill := hlasts (n + 1) (Nat.le_succ_of_le hin) (Nat.le_refl _)
    obtain ⟨c, hc, hnext⟩ | hnext := HostCall.stateAt_succ_cases m acts n
    · obtain ⟨hm, hw⟩ := hacts c (List.mem_of_getElem? hc)
      rw [hnext] at hstill ⊢
      obtain hidle | ⟨key?'', hwait', hstack'⟩ :=
        hwait.moment hm hw fun program => hloads n c program hc
      · exact (hstill hidle).elim
      · exact ⟨key?'', hwait', hstack'.trans hstack⟩
    · rw [hnext]
      exact ⟨key?', hwait, hstack⟩

end Session

/-- The flags of the wait speak of the instruction at the program counter: the register
that waits is the one of that instruction, and a key is kept for such an instruction. -/
structure PointsAtWait (m : Machine) : Prop where
  awaiting : ∀ x, m.flags.awaiting = some x → ∃ r : Reg, r.val = x ∧ m.instr? = some (.awaitKey r)
  pressed : ∀ key, m.flags.pressed = some key → ∃ r, m.instr? = some (.awaitKey r)

/-- Where the wait is in place, its flags speak of the instruction at the program counter. -/
theorem WaitInPlace.pointsAtWait {m : Machine} (h : m.WaitInPlace) : m.PointsAtWait := by
  rcases h with hidle | ⟨p, r, key?, hwait⟩
  · refine ⟨fun x hx => ?_, fun key hkey => ?_⟩
    · cases hidle.awaiting.symm.trans hx
    · cases hidle.pressed.symm.trans hkey
  · refine ⟨fun x hx => ⟨r, ?_, hwait.instr⟩, fun key _ => ⟨r, hwait.instr⟩⟩
    cases key? with
    | none => exact Option.some.inj (hwait.flags.1.symm.trans hx)
    | some key => cases hwait.flags.1.symm.trans hx

/-- **The wait points at its instruction, and nothing else happens until it is over.**
Take a session of a fresh machine that leaves the flags of the wait alone, and gives
programs to the machine only when nothing waits for a key.  Before and after every call,
and at every moment of its timeline, a register that waits is that of the instruction at
the program counter, and a key is kept only for such an instruction.  From a moment `i` on,
as long as there is a wait, the machine stays at the instruction, with the same return
addresses, and a tick can do nothing but execute it: it succeeds, enters and leaves no
subroutine and reaches no halt. -/
theorem wait_points_at_instruction (random : Random) {calls : List HostCall}
    (hc : ∀ c ∈ calls, c.assignsWait = false)
    (hloads : HostCall.LoadsIdle (fresh random) calls) :
    let m := fresh random
    let acts := HostCall.timeline m calls
    (∀ k, (HostCall.stateAt m calls k).PointsAtWait) ∧
      (∀ n, (HostCall.stateAt m acts n).PointsAtWait) ∧
      ∀ i n, i ≤ n → (∀ k, i ≤ k → k ≤ n → ¬(HostCall.stateAt m acts k).flags.Idle) →
        ∃ x, (HostCall.stateAt m acts i).OnlyAwaits x ∧ (HostCall.stateAt m acts n).OnlyAwaits x ∧
          (HostCall.stateAt m acts n).pc = (HostCall.stateAt m acts i).pc ∧
          (HostCall.stateAt m acts n).stack = (HostCall.stateAt m acts i).stack := by
  intro m acts
  have hacts (c : HostCall) : c ∈ acts → c.isMoment = true ∧ c.assignsWait = false :=
    HostCall.isMoment_of_mem_timeline hc
  have hloads : HostCall.LoadsIdle m acts := hloads.timeline
  have hfresh : m.WaitInPlace := .inl ⟨rfl, rfl⟩
  have hplace := hfresh.stateAt hacts hloads
  refine ⟨fun k => ?_, fun n => (hplace n).pointsAtWait, fun i n hin hlasts => ?_⟩
  · obtain ⟨n, hn⟩ := HostCall.exists_stateAt_timeline m calls k
    rw [← hn]
    exact (hplace n).pointsAtWait
  · obtain hidle | ⟨p, x, key?, hwait⟩ := hplace i
    · exact (hlasts i (Nat.le_refl i) hin hidle).elim
    · obtain ⟨key?', hwait', hstack⟩ := hwait.stateAt_of_not_idle hacts hloads hin hlasts
      exact ⟨x, onlyAwaits_of_instr hwait.instr, onlyAwaits_of_instr hwait'.instr,
        hwait'.pc.trans hwait.pc.symm, hstack⟩

/-- A wait that begins in a run of two cycles; a key is pressed, but the machine is paused
in the next tick. -/
def waitInPause : List HostCall :=
  [.load [0xF3, 0x0A], .multistep 2, .setKey 5 true, .togglePaused, .tick, .togglePaused]

/-- From the second moment to the end, the wait lasts. -/
theorem wait_points_at_instruction_waitInPause :
    let m := fresh (.ofSeed 8)
    let acts := HostCall.timeline m waitInPause
    (∀ c ∈ waitInPause, c.assignsWait = false) ∧ HostCall.LoadsIdle m waitInPause ∧
      (∀ k, 2 ≤ k → k ≤ 7 → ¬(HostCall.stateAt m acts k).flags.Idle) ∧
      (HostCall.stateAt m acts 7).flags.pressed = some 5 ∧
      (HostCall.stateAt m acts 7).PointsAtWait ∧
      (HostCall.stateAt m acts 7).OnlyAwaits 3 ∧ (HostCall.stateAt m acts 7).pc = 0x200 := by
  intro m acts
  have hc : ∀ c ∈ waitInPause, c.assignsWait = false := by decide
  have hloads : HostCall.LoadsIdle m waitInPause := by
    intro k c program hk hprogram
    match k, hk with
    | 0, _ => exact ⟨rfl, rfl⟩
    | k + 1, hk =>
      have hmem : c ∈ waitInPause.tail := List.mem_of_getElem? hk
      have hnone : ∀ c ∈ waitInPause.tail, c.program? = none := by decide
      cases (hnone c hmem).symm.trans hprogram
  have hwaits : ∀ k < 8, 2 ≤ k → ¬(HostCall.stateAt m acts k).flags.Idle := by decide +kernel
  have hlasts (k : Nat) (h : 2 ≤ k) (hk : k ≤ 7) : ¬(HostCall.stateAt m acts k).flags.Idle :=
    hwaits k (Nat.lt_succ_of_le hk) h
  have hpressed : (HostCall.stateAt m acts 7).flags.pressed = some 5 := by decide +kernel
  have hstart : (HostCall.stateAt m acts 2).instr? = some (.awaitKey 3) := by decide +kernel
  have hpc : (HostCall.stateAt m acts 2).pc = 0x200 := by decide +kernel
  obtain ⟨-, hpoints, hholds⟩ := wait_points_at_instruction (.ofSeed 8) hc hloads
  obtain ⟨x, hbegins, honly, hstays, -⟩ := hholds 2 7 (by decide) hlasts
  obtain rfl : x = 3 := Instr.awaitKey.inj (Option.some.inj (hbegins.instr.symm.trans hstart))
  exact ⟨hc, hloads, hlasts, hpressed, hpoints 7, honly, hstays.trans hpc⟩

end Machine
end Chip8
