/-
# Tracing does not interfere

With its tracing flag up a machine writes every word to the log before it decodes it,
whether it is an instruction or not.  That happens in the middle of a cycle, between
fetching and decoding, and the flag can go up and down in the course of a session.

It makes no difference but in the log.  No instruction sees the flag
(`execute_setTracing`), the trace of a cycle is a record of level `DEBUG` or none
(`filter_trace`), and nothing else looks at the flag.  So two machines that differ in
it alone run in lockstep, as far as the log is read without those records
(`SameButTracing.lockstep`).
-/

import Chip8.Proofs.Overlay

namespace Chip8

/-- The record is not one for debugging. -/
def Record.notDebug (r : Record) : Bool := r.level != .debug

namespace Machine

/-- The machines are equal but for their tracing flags. -/
def SameButTracing (s t : Machine) : Prop := s.setTracing t.flags.tracing = t

/-- Of machines that are equal but for the tracing flag each is the other with its flag put
in. -/
theorem SameButTracing.exists_setTracing {s t : Machine} (h : s.SameButTracing t) :
    ∃ tracing, t = s.setTracing tracing :=
  ⟨t.flags.tracing, h.symm⟩

/-- **The trace of a cycle is for debugging only.** -/
theorem filter_trace (m : Machine) (word : UInt16) :
    (m.trace word).filter Record.notDebug = [] := by
  unfold trace
  cases m.flags.tracing with
  | true => rfl
  | false => rfl

/-- **A cycle does not see the tracing flag,** but for the records for debugging. -/
theorem SameButTracing.step {s t : Machine} (h : s.SameButTracing t) :
    s.step.Matches Record.notDebug SameButTracing t.step := by
  rcases h.exists_setTracing with ⟨tracing, rfl⟩
  have htrace (word : UInt16) : (s.trace word).filter Record.notDebug =
      ((s.setTracing tracing).trace word).filter Record.notDebug := by
    rw [filter_trace, filter_trace]
  refine matches_step h rfl rfl htrace fun i _ => ?_
  refine matches_perform ?_ ?_ ?_
  · show (s.advance.execute i).Matches _ _ ((s.advance.setTracing tracing).execute i)
    rw [execute_setTracing]
    exact ⟨rfl, rfl, rfl⟩
  · intro a b hab
    rcases hab.exists_setTracing with ⟨_, rfl⟩
    rfl
  · intro a b hab
    rcases hab.exists_setTracing with ⟨_, rfl⟩
    rfl

/-- **Machines that differ in the tracing flag alone run in lockstep.** -/
theorem SameButTracing.lockstep : Lockstep Record.notDebug SameButTracing where
  paused := by
    intro s t h
    rcases h.exists_setTracing with ⟨tracing, rfl⟩
    rfl
  step := SameButTracing.step
  host := by
    intro s t h c hc
    rcases h.exists_setTracing with ⟨tracing, rfl⟩
    rw [(s.blind_apply hc).apply_setTracing]
    exact ⟨rfl, rfl, rfl⟩

/-- **Tracing does not interfere.**  On machines that differ in the tracing flag alone,
every call of a session has the same result, and after it the machines again differ
there at most; and the session tells the same on both, the records for debugging
aside. -/
theorem tracing_unobservable {s t : Machine} (h : s.setTracing t.flags.tracing = t)
    (calls : List HostCall) :
    (∀ k (hk : k < calls.length),
      (calls[k].apply (HostCall.stateAt s calls k)).result =
          (calls[k].apply (HostCall.stateAt t calls k)).result ∧
        (HostCall.stateAt s calls (k + 1)).setTracing
            (HostCall.stateAt t calls (k + 1)).flags.tracing =
          HostCall.stateAt t calls (k + 1)) ∧
      (HostCall.log s calls).filter (·.level != .debug) =
        (HostCall.log t calls).filter (·.level != .debug) := by
  have hst : s.SameButTracing t := h
  have lockstep := SameButTracing.lockstep
  refine ⟨fun k hk => ⟨?_, ?_⟩, ?_⟩
  · exact (lockstep.apply (lockstep.stateAt hst calls k) calls[k]).result
  · exact lockstep.stateAt hst calls (k + 1)
  · exact lockstep.log hst calls

/-- An instruction, then a word that is none, with the flag switched in between: each
machine traces what the other does not, and they tell the same otherwise. -/
theorem tracing_unobservable_switched :
    let s := ofSeed 8
    let t := s.setTracing true
    let calls : List HostCall :=
      [.load [0xC0, 0x0F, 0xFF, 0xFF], .tick, .toggleTracing, .frame 2, .togglePaused, .singlestep,
        .reset]
    let fault : Record := .fault (.illegalInstruction 0x202 0xFFFF)
    s.setTracing t.flags.tracing = t ∧
      HostCall.log s calls ≠ HostCall.log t calls ∧
      (HostCall.log s calls).filter (·.level != .debug) =
        [.loaded 4 0x200, fault, .timers 0 0, fault, .reset] ∧
      (HostCall.log t calls).filter (·.level != .debug) =
        [.loaded 4 0x200, fault, .timers 0 0, fault, .reset] := by
  intro s t calls fault
  have hst : s.setTracing t.flags.tracing = t := rfl
  have hlogs : HostCall.log s calls ≠ HostCall.log t calls := by decide +kernel
  have hlog : (HostCall.log s calls).filter (·.level != .debug) =
      [.loaded 4 0x200, fault, .timers 0 0, fault, .reset] := by
    decide +kernel
  exact ⟨hst, hlogs, hlog, (tracing_unobservable hst calls).2.symm.trans hlog⟩

end Machine
end Chip8
