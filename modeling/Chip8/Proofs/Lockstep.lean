/-
# Sessions in lockstep

Two machines run in lockstep if the same calls have the same results on both and
tell the same, however long the session.  `LockstepWhile keep safe R` reduces this to
two obligations on a relation `R` between machines: one cycle, provided that the
instruction that it executes is safe, and each call that runs no cycle.  Records of the
log are compared as far as `keep` keeps them.  The calls that run cycles follow
(`LockstepWhile.apply`), and with them the sessions that execute safe instructions only
(`LockstepWhile.session`).  In `Lockstep keep R` every instruction is safe.

A cycle reduces further, to its instruction: fetching, decoding, counting and undoing
a failure are the same for every relation that leaves alone what they look at
(`matches_step`, `matches_perform`).
-/

import Chip8.Proofs.Timeline

namespace Chip8

/-- The outcomes have the same result and the same records, as far as those are
kept, and leave related machines. -/
structure Outcome.Matches {α : Type} (keep : Record → Bool) (R : Machine → Machine → Prop)
    (o p : Outcome α) : Prop where
  result : o.result = p.result
  log : o.log.filter keep = p.log.filter keep
  machine : R o.machine p.machine

/-- The call runs no cycle. -/
def HostCall.runsNoCycle : HostCall → Bool
  | .tick | .singlestep | .multistep _ | .frame _ => false
  | _ => true

/-- Related machines do a cycle alike, if they execute a safe instruction, and answer
alike to the calls that run no cycle. -/
structure LockstepWhile (keep : Record → Bool) (safe : Instr → Prop)
    (R : Machine → Machine → Prop) : Prop where
  paused : ∀ {s t}, R s t → s.flags.paused = t.flags.paused
  step : ∀ {s t}, R s t → s.flags.paused = false → (∀ i, s.Executes i → safe i) →
    s.step.Matches keep R t.step
  host : ∀ {s t}, R s t → ∀ c : HostCall, c.runsNoCycle = true →
    (c.apply s).Matches keep R (c.apply t)

/-- Related machines do a cycle alike, and answer alike to the calls that run no
cycle. -/
structure Lockstep (keep : Record → Bool) (R : Machine → Machine → Prop) : Prop where
  paused : ∀ {s t}, R s t → s.flags.paused = t.flags.paused
  step : ∀ {s t}, R s t → s.step.Matches keep R t.step
  host : ∀ {s t}, R s t → ∀ c : HostCall, c.runsNoCycle = true →
    (c.apply s).Matches keep R (c.apply t)

namespace Outcome.Matches

variable {α β : Type} {keep : Record → Bool} {R : Machine → Machine → Prop} {o p : Outcome α}

/-- Outcomes that match still do when their values are mapped. -/
theorem map (h : o.Matches keep R p) (f : α → β) : (o.map f).Matches keep R (p.map f) :=
  ⟨congrArg (Except.map f) h.result, h.log, h.machine⟩

/-- Outcomes that match still do after logs that match. -/
theorem after (h : o.Matches keep R p) {l₁ l₂ : List Record}
    (hl : l₁.filter keep = l₂.filter keep) : (o.after l₁).Matches keep R (p.after l₂) := by
  refine ⟨h.result, ?_, h.machine⟩
  simp only [Outcome.after, List.filter_append, hl, h.log]

end Outcome.Matches

/-! ## From an instruction to a cycle -/

namespace Machine

/-- Every record counts. -/
def everyRecord : Record → Bool := fun _ => true

/-- If every record counts, the log is kept whole. -/
theorem filter_everyRecord (log : List Record) : log.filter everyRecord = log :=
  List.filter_eq_self.2 fun _ _ => rfl

variable {keep : Record → Bool} {R : Machine → Machine → Prop} {s t : Machine}

/-- Two successes match if the machines are related. -/
theorem matches_done (h : R s t) : (Outcome.done s).Matches keep R (.done t) := ⟨rfl, rfl, h⟩

/-- Two failures with one fault match if the machines are related. -/
theorem matches_failed (h : R s t) (f : Fault) :
    (Outcome.failed f s).Matches keep R (.failed f t) := ⟨rfl, rfl, h⟩

/-- Counting the cycle and putting the program counter back are alike for a relation
that these changes keep. -/
theorem matches_perform {i : Instr}
    (hx : (s.advance.execute i).Matches keep R (t.advance.execute i))
    (count : ∀ {a b}, R a b → R { a with cycle := a.cycle + 1 } { b with cycle := b.cycle + 1 })
    (back : ∀ {a b}, R a b → R { a with pc := s.pc } { b with pc := t.pc }) :
    (s.perform i).Matches keep R (t.perform i) := by
  simp only [perform, ← hx.result]
  cases (s.advance.execute i).result with
  | ok u => exact ⟨rfl, hx.log, count hx.machine⟩
  | error f => exact ⟨rfl, hx.log, back hx.machine⟩

/-- **Related machines do a cycle alike** if they have the same word at the same program
counter, trace it alike as far as the log is compared, and execute it alike. -/
theorem matches_step (h : R s t) (hpc : s.pc = t.pc) (hmemory : s.memory = t.memory)
    (htrace : ∀ word, (s.trace word).filter keep = (t.trace word).filter keep)
    (hx : ∀ i, s.instr? = some i → (s.perform i).Matches keep R (t.perform i)) :
    s.step.Matches keep R t.step := by
  have hword : t.word? = s.word? := by rw [word?, ← hmemory, ← hpc, word?]
  simp only [step, hword]
  cases hw : s.word? with
  | none =>
    simp only [← hpc]
    exact matches_failed h _
  | some word =>
    refine Outcome.Matches.after ?_ (htrace word)
    simp only [interpret]
    cases hd : Instr.decode word with
    | none =>
      simp only [← hpc]
      exact matches_failed h _
    | some i => exact hx i (by rw [instr?, hw, Option.bind_some, hd])

/-- Related machines tick alike if neither is paused alone and they do a cycle alike. -/
theorem matches_tick (h : R s t) (hpaused : s.flags.paused = t.flags.paused)
    (hstep : s.flags.paused = false → s.step.Matches keep R t.step) :
    s.tick.Matches keep R t.tick := by
  unfold tick
  rw [← hpaused]
  cases hp : s.flags.paused with
  | true => exact ⟨rfl, rfl, h⟩
  | false =>
    obtain ⟨hresult, hlog, hmachine⟩ := hstep hp
    simp only [Bool.false_eq_true, if_false]
    rw [← hresult]
    cases s.step.result with
    | ok u => exact ⟨hresult, hlog, hmachine⟩
    | error f =>
      refine ⟨rfl, ?_, hmachine⟩
      simp only [List.filter_append, hlog]

end Machine

/-! ## From a cycle to a session -/

namespace LockstepWhile

variable {keep : Record → Bool} {safe : Instr → Prop} {R : Machine → Machine → Prop}
  {s t : Machine}

/-- Related machines stay so when both are paused or both go on. -/
theorem setPaused (l : LockstepWhile keep safe R) (h : R s t) (paused : Bool) :
    R (s.setPaused paused) (t.setPaused paused) :=
  (l.host h (.changeFlags ⟨none, some paused, none, none⟩) rfl).machine

/-- Related machines tick alike, if what they execute is safe. -/
theorem tick (l : LockstepWhile keep safe R) (h : R s t) (hs : ∀ i, s.Executes i → safe i) :
    s.tick.Matches keep R t.tick :=
  Machine.matches_tick h (l.paused h) fun hp => l.step h hp hs

/-- Related machines do a single step alike, if what they execute is safe. -/
theorem singlestep (l : LockstepWhile keep safe R) (h : R s t)
    (hs : ∀ i, (s.setPaused false).Executes i → safe i) :
    s.singlestep.Matches keep R t.singlestep := by
  have ht := l.tick (l.setPaused h false) hs
  refine ⟨ht.result, ht.log, ?_⟩
  simp only [Machine.singlestep]
  rw [← l.paused ht.machine, ← l.paused h]
  exact l.setPaused ht.machine _

/-- **Related machines run cycles alike,** if all that they execute is safe. -/
theorem multistep (l : LockstepWhile keep safe R) (h : R s t) (n : Nat)
    (hs : ∀ i ∈ HostCall.executed s (s.ticks n), safe i) :
    (s.multistep n).Matches keep R (t.multistep n) := by
  induction n generalizing s t with
  | zero => exact ⟨rfl, rfl, h⟩
  | succ n ih =>
    rw [HostCall.executed_ticks_succ] at hs
    have ht := l.tick h fun i hi =>
      hs i (List.mem_append_left _ (Option.mem_toList.2 (Machine.executed?_eq_some_iff.2 hi)))
    rw [Machine.multistep_succ, Machine.multistep_succ, ← ht.result]
    cases hr : s.tick.result with
    | error f => exact ⟨rfl, ht.log, ht.machine⟩
    | ok u =>
      rw [hr] at hs
      exact (ih ht.machine fun i hi => hs i (List.mem_append_right _ hi)).after ht.log

/-- Related machines run a frame alike, if all that they execute is safe. -/
theorem frame (l : LockstepWhile keep safe R) (h : R s t) (n : Nat)
    (hs : ∀ i ∈ HostCall.executed s (s.ticks n), safe i) :
    (s.frame n).Matches keep R (t.frame n) := by
  have hm := l.multistep h n hs
  have htimers := l.host hm.machine .tickTimers rfl
  refine ⟨hm.result, ?_, htimers.machine⟩
  simp only [Machine.frame, List.filter_append, hm.log]
  exact congrArg _ htimers.log

/-- **Related machines answer a call alike** if it executes safe instructions only. -/
theorem apply (l : LockstepWhile keep safe R) (h : R s t) (c : HostCall)
    (hs : ∀ i ∈ HostCall.executed s (c.moments s), safe i) :
    (c.apply s).Matches keep R (c.apply t) := by
  have hexecuted (m : Machine) (hm : ∀ i ∈ m.executed?.toList, safe i) (i : Instr)
      (hi : m.Executes i) : safe i :=
    hm i (Option.mem_toList.2 (Machine.executed?_eq_some_iff.2 hi))
  cases c with
  | tick =>
    have hs : ∀ i ∈ s.executed?.toList ++ [], safe i := hs
    rw [List.append_nil] at hs
    exact (l.tick h (hexecuted s hs)).map _
  | singlestep =>
    rw [HostCall.executed_moments_singlestep] at hs
    exact (l.singlestep h (hexecuted _ hs)).map _
  | multistep n => exact (l.multistep h n hs).map _
  | frame n =>
    rw [HostCall.executed_moments_frame] at hs
    exact (l.frame h n hs).map _
  | _ => exact l.host h _ rfl

/-- **Related machines answer every call of a session alike** that executes safe
instructions only. -/
theorem session (l : LockstepWhile keep safe R) (h : R s t) {calls : List HostCall}
    (hs : ∀ i ∈ HostCall.executed s (HostCall.timeline s calls), safe i) {k : Nat}
    (hk : k < calls.length) :
    (calls[k].apply (HostCall.stateAt s calls k)).Matches keep R
      (calls[k].apply (HostCall.stateAt t calls k)) := by
  induction calls generalizing s t k with
  | nil => exact absurd hk (Nat.not_lt_zero k)
  | cons c calls ih =>
    rw [HostCall.executed_timeline_cons] at hs
    have hc := l.apply h c fun i hi => hs i (List.mem_append_left _ hi)
    cases k with
    | zero => exact hc
    | succ k =>
      exact ih hc.machine (fun i hi => hs i (List.mem_append_right _ hi))
        (Nat.lt_of_succ_lt_succ hk)

end LockstepWhile

namespace Lockstep

variable {keep : Record → Bool} {R : Machine → Machine → Prop} {s t : Machine}

/-- Machines that do every cycle alike need no instruction to be safe. -/
theorem lockstepWhile (l : Lockstep keep R) : LockstepWhile keep (fun _ => True) R :=
  ⟨l.paused, fun h _ _ => l.step h, l.host⟩

/-- **Related machines answer every call alike.** -/
theorem apply (l : Lockstep keep R) (h : R s t) (c : HostCall) :
    (c.apply s).Matches keep R (c.apply t) :=
  l.lockstepWhile.apply h c fun _ _ => trivial

/-- **Related machines stay related through every session.** -/
theorem stateAt (l : Lockstep keep R) (h : R s t) (calls : List HostCall) (k : Nat) :
    R (HostCall.stateAt s calls k) (HostCall.stateAt t calls k) := by
  unfold HostCall.stateAt
  induction calls.take k generalizing s t with
  | nil => exact h
  | cons c calls ih => exact ih (l.apply h c).machine

/-- **Related machines tell the same in every session,** as far as records are kept. -/
theorem log (l : Lockstep keep R) (h : R s t) (calls : List HostCall) :
    (HostCall.log s calls).filter keep = (HostCall.log t calls).filter keep := by
  induction calls generalizing s t with
  | nil => rfl
  | cons c calls ih =>
    have hc := l.apply h c
    rw [HostCall.log, HostCall.log, List.filter_append, List.filter_append, hc.log, ih hc.machine]

end Lockstep
end Chip8
