/-
# The timeline of a session

One call of a host can run many cycles.  What happens between two of them, and
which instruction was executed just before another, is seen on the timeline of a
session: every call is broken up into its moments, each a tick or a call that
runs no cycle.

| call | moments |
| --- | --- |
| `singlestep` | a tick, with the pause lifted before it and put back after it |
| `multistep n` | `n` ticks, up to the first that fails |
| `frame n` | those of `multistep n`, then a tick of the timers |
| any other | the call itself |

Going through the moments leaves the machine as the session leaves it
(`run_timeline`), so a statement about every timeline is one about every session,
and about every instruction that it executes.  Those are the instructions of the
ticks that succeed on a machine that is not paused, in order (`executed`).
-/

import Chip8.Proofs.Bounds
import Chip8.Proofs.Footprint

namespace Chip8
namespace Machine

/-- The ticks that `n` cycles try, up to the first that fails. -/
def ticks (m : Machine) : Nat → List HostCall
  | 0 => []
  | n + 1 =>
    .tick :: match m.tick.result with
      | .error _ => []
      | .ok () => m.tick.machine.ticks n

end Machine

namespace HostCall

/-- Sets the pause flag and no other. -/
def assignPaused (paused : Bool) : HostCall := .changeFlags ⟨none, some paused, none, none⟩

/-- The ticks and the calls without a cycle that a call consists of. -/
def moments (m : Machine) : HostCall → List HostCall
  | .singlestep =>
    if m.flags.paused then [assignPaused false, .tick, assignPaused true] else [.tick]
  | .multistep n => m.ticks n
  | .frame n => m.ticks n ++ [.tickTimers]
  | c => [c]

/-- The moments of a session, one call after the other. -/
def timeline (m : Machine) : List HostCall → List HostCall
  | [] => []
  | c :: calls => c.moments m ++ timeline (c.apply m).machine calls

/-- The call is a moment: it does not run more than one cycle, and does nothing
beside a cycle. -/
def isMoment : HostCall → Bool
  | .singlestep | .multistep _ | .frame _ => false
  | _ => true

/-- The ticks of a run lead to where the run leads. -/
theorem run_ticks (m : Machine) (n : Nat) : run m (m.ticks n) = (m.multistep n).machine := by
  induction n generalizing m with
  | zero => rfl
  | succ n ih =>
    rw [Machine.ticks, Machine.multistep_succ]
    cases m.tick.result with
    | error f => rfl
    | ok u => exact ih m.tick.machine

/-- **The moments of a call do what the call does.** -/
theorem run_moments (m : Machine) (c : HostCall) : run m (c.moments m) = (c.apply m).machine := by
  cases c with
  | singlestep =>
    rw [moments]
    show _ = (m.setPaused false).tick.machine.setPaused
      ((m.setPaused false).tick.machine.flags.paused || m.flags.paused)
    cases hp : m.flags.paused with
    | true =>
      rw [Bool.or_true]
      rfl
    | false =>
      have hm : m.setPaused false = m := Machine.setPaused_eq_self hp
      rw [Bool.or_false, hm]
      rfl
  | multistep n => exact run_ticks m n
  | frame n =>
    rw [moments, run_append, run_ticks]
    rfl
  | _ => rfl

/-- **The timeline of a session leads where the session leads.** -/
theorem run_timeline (m : Machine) (calls : List HostCall) :
    run m (timeline m calls) = run m calls := by
  induction calls generalizing m with
  | nil => rfl
  | cons c calls ih =>
    rw [timeline, run_append, run_moments, ih]
    rfl

/-- The moments of two sessions follow one another. -/
theorem timeline_append (m : Machine) (a b : List HostCall) :
    timeline m (a ++ b) = timeline m a ++ timeline (run m a) b := by
  induction a generalizing m with
  | nil => rfl
  | cons c a ih =>
    rw [List.cons_append, timeline, timeline, ih, List.append_assoc]
    rfl

/-- A run of cycles consists of ticks. -/
theorem eq_tick_of_mem_ticks {m : Machine} {n : Nat} {c : HostCall} (h : c ∈ m.ticks n) :
    c = .tick := by
  induction n generalizing m with
  | zero => cases h
  | succ n ih =>
    rw [Machine.ticks] at h
    obtain rfl | h := List.mem_cons.1 h
    · rfl
    · split at h
      · cases h
      · exact ih h

/-- The moments of a call are moments, and assign the wait for a key only if the
call does. -/
theorem isMoment_of_mem_moments {m : Machine} {c d : HostCall} (h : d ∈ c.moments m) :
    d.isMoment = true ∧ (c.assignsWait = false → d.assignsWait = false) := by
  cases c with
  | singlestep =>
    rw [moments] at h
    split at h
    · obtain rfl | rfl | rfl : d = assignPaused false ∨ d = .tick ∨ d = assignPaused true := by
        simpa using h
      all_goals exact ⟨rfl, fun _ => rfl⟩
    · obtain rfl := List.mem_singleton.1 h
      exact ⟨rfl, fun _ => rfl⟩
  | multistep n =>
    obtain rfl := eq_tick_of_mem_ticks h
    exact ⟨rfl, fun _ => rfl⟩
  | frame n =>
    obtain h | h := List.mem_append.1 h
    · obtain rfl := eq_tick_of_mem_ticks h
      exact ⟨rfl, fun _ => rfl⟩
    · obtain rfl := List.mem_singleton.1 h
      exact ⟨rfl, fun _ => rfl⟩
  | _ =>
    obtain rfl := List.mem_singleton.1 h
    exact ⟨rfl, id⟩

/-- A timeline consists of moments. -/
theorem isMoment_of_timeline {m : Machine} {calls : List HostCall} {d : HostCall}
    (h : d ∈ timeline m calls) : d.isMoment = true := by
  induction calls generalizing m with
  | nil => cases h
  | cons c calls ih =>
    rcases List.mem_append.1 h with h | h
    · exact (isMoment_of_mem_moments h).1
    · exact ih h

/-- If no call assigns the flags of the wait, no moment does. -/
theorem isMoment_of_mem_timeline {m : Machine} {calls : List HostCall}
    (hc : ∀ c ∈ calls, c.assignsWait = false) {d : HostCall} (h : d ∈ timeline m calls) :
    d.isMoment = true ∧ d.assignsWait = false := by
  induction calls generalizing m with
  | nil => cases h
  | cons c calls ih =>
    obtain h | h := List.mem_append.1 h
    · obtain ⟨hd, hw⟩ := isMoment_of_mem_moments h
      exact ⟨hd, hw (hc c (List.mem_cons_self ..))⟩
    · exact ih (fun c hm => hc c (List.mem_cons_of_mem _ hm)) h

end HostCall

/-! ## The instructions that a timeline executes -/

namespace Machine

/-- At moment `k` of a timeline there is a tick, of a machine with the property. -/
def TickAt (m : Machine) (acts : List HostCall) (k : Nat) (P : Machine → Prop) : Prop :=
  acts[k]? = some .tick ∧ P (HostCall.stateAt m acts k)

/-- The instruction that the next tick executes, if it executes one. -/
def executed? (m : Machine) : Option Instr :=
  if m.flags.paused || m.fault?.isSome then none else m.instr?

/-- The instruction that a tick executes is the one that it is said to execute. -/
theorem executed?_eq_some_iff {m : Machine} {i : Instr} :
    m.executed? = some i ↔ m.Executes i := by
  rw [executes_iff, executed?]
  cases m.flags.paused <;> cases m.fault? <;> simp

/-- A tick that executes nothing changes nothing. -/
theorem machine_tick_of_executed?_eq_none {m : Machine} (h : m.executed? = none) :
    m.tick.machine = m := by
  refine machine_tick_of_not_executes fun i hi => ?_
  rw [executed?_eq_some_iff.2 hi] at h
  cases h

end Machine

namespace HostCall

/-- The instruction that a moment executes, if it executes one. -/
def executed? (m : Machine) : HostCall → Option Instr
  | .tick => m.executed?
  | _ => none

/-- The instructions that moments execute, in order. -/
def executed (m : Machine) : List HostCall → List Instr
  | [] => []
  | c :: acts => (c.executed? m).toList ++ executed (c.apply m).machine acts

/-- What two sessions execute follows one another. -/
theorem executed_append (m : Machine) (a b : List HostCall) :
    executed m (a ++ b) = executed m a ++ executed (run m a) b := by
  induction a generalizing m with
  | nil => rfl
  | cons c a ih =>
    rw [List.cons_append, executed, executed, ih, List.append_assoc]
    rfl

/-- What a session executes is what its calls execute, one after the other. -/
theorem executed_timeline_cons (m : Machine) (c : HostCall) (calls : List HostCall) :
    executed m (timeline m (c :: calls)) =
      executed m (c.moments m) ++
        executed (c.apply m).machine (timeline (c.apply m).machine calls) := by
  rw [timeline, executed_append, run_moments]

/-- A run executes what its first tick executes and, if this succeeds, what the others do. -/
theorem executed_ticks_succ (m : Machine) (n : Nat) :
    executed m (m.ticks (n + 1)) =
      m.executed?.toList ++
        match m.tick.result with
        | .error _ => []
        | .ok () => executed m.tick.machine (m.tick.machine.ticks n) := by
  rw [Machine.ticks, executed]
  refine congrArg (m.executed?.toList ++ ·) ?_
  show executed m.tick.machine _ = _
  cases m.tick.result with
  | error f => rfl
  | ok u => rfl

/-- A single step executes the instruction that a tick executes with the pause lifted. -/
theorem executed_moments_singlestep (m : Machine) :
    executed m (HostCall.singlestep.moments m) = (m.setPaused false).executed?.toList := by
  rw [moments]
  cases hp : m.flags.paused with
  | true => exact List.append_nil _
  | false =>
    have hm : m.setPaused false = m := Machine.setPaused_eq_self hp
    rw [hm]
    exact List.append_nil _

/-- A frame executes what its cycles execute: the tick of the timers executes nothing. -/
theorem executed_moments_frame (m : Machine) (n : Nat) :
    executed m ((HostCall.frame n).moments m) = executed m (m.ticks n) := by
  rw [moments, executed_append]
  exact List.append_nil _

end HostCall
end Chip8
