/-
# The trace is the run

With its tracing flag up a machine writes every word that it fetches to the log, before
it looks whether the word is an instruction; and every tick that fails warns of its fault,
after everything else.  So the log of a run tells tick by tick what came of it:

| tick `j` of a run | `DEBUG` | `WARN` |
| --- | --- | --- |
| executes an instruction | cycle, address and word | |
| finds no whole word | | the fault |
| fails on the word | cycle, address and word | the fault |
| finds the machine paused | | |

The two rows with a fault end the run.  Every tick before them counts one cycle, so record
`j` of the trace shows a count that has grown by `j`, and the trace has one record for
every instruction that is executed and one more for a word on which the run fails
(`length_traced_multistep`).  The other records of a run are the notice of a halt and, in
a frame, the timers; no call but those that run cycles warns of anything.
-/

import Chip8.Proofs.CycleCount
import Chip8.Proofs.Lockstep

namespace Chip8
namespace Outcome

variable {α : Type}

/-- The records for debugging, in order. -/
def traced (o : Outcome α) : List Record := o.log.filter (·.level == .debug)

/-- The log warns of a failure and of nothing else: it has one warning, with the message
of the fault, if the call fails, and none if it succeeds.  What follows the warning is
`rest`. -/
def WarnsOfFailure (o : Outcome α) (rest : List Record) : Prop :=
  ∃ told : List Record, (∀ r ∈ told, r.level ≠ .warn) ∧
    match o.result with
    | .ok _ => o.log = told ++ rest
    | .error f =>
      ∃ w : Record, w.level = .warn ∧ w.message = f.message ∧ o.log = told ++ w :: rest

/-- Records for debugging in an earlier log come before the others. -/
theorem traced_after (o : Outcome α) (log : List Record) :
    (o.after log).traced = log.filter (·.level == .debug) ++ o.traced := by
  rw [traced, after, List.filter_append]
  rfl

/-- An earlier log without warnings takes nothing from what a log warns of. -/
theorem WarnsOfFailure.after {o : Outcome α} {rest log : List Record} (h : o.WarnsOfFailure rest)
    (hlog : ∀ r ∈ log, r.level ≠ .warn) : (o.after log).WarnsOfFailure rest := by
  rcases h with ⟨told, htold, hresult⟩
  refine ⟨log ++ told, ?_, ?_⟩
  · intro r hr
    rcases List.mem_append.1 hr with hr | hr
    · exact hlog r hr
    · exact htold r hr
  · simp only [Outcome.after]
    cases hr : o.result with
    | ok a =>
      rw [hr] at hresult
      simp only [hresult, List.append_assoc]
    | error f =>
      rw [hr] at hresult
      rcases hresult with ⟨w, hlevel, hmessage, hlast⟩
      exact ⟨w, hlevel, hmessage, by rw [hlast, List.append_assoc]⟩

end Outcome

namespace Machine

variable {m : Machine} {r : Record} {n j : Nat}

/-! ## The records of a tick -/

/-- An instruction tells of nothing but a jump to itself. -/
theorem log_execute (m : Machine) (i : Instr) :
    (m.execute i).log =
      match i with
      | .jump target => if target.toWord + 2 = m.pc then [.halted target.toWord] else []
      | _ => [] := by
  cases i with
  | ret =>
    simp only [execute, ret]
    cases m.returns <;> rfl
  | call target =>
    simp only [execute, callAt]
    split <;> rfl
  | jump target =>
    simp only [execute, jumpTo]
    split <;> rfl
  | _ => rfl

/-- Executing an instruction tells of a halt and of nothing else. -/
theorem level_of_mem_log_execute {i : Instr} (h : r ∈ (m.execute i).log) : r.level = .info := by
  rw [log_execute] at h
  cases i with
  | jump target =>
    simp only at h
    split at h
    · obtain rfl := List.mem_singleton.1 h
      rfl
    · cases h
  | _ => cases h

/-- Counting the cycle tells of nothing. -/
theorem log_perform (m : Machine) (i : Instr) :
    (m.perform i).log = (m.advance.execute i).log := by
  rw [perform]
  split <;> rfl

/-- All that executing a word tells is information. -/
theorem level_of_mem_log_interpret {word : UInt16} (h : r ∈ (m.interpret word).log) :
    r.level = .info := by
  rw [interpret] at h
  split at h
  · cases h
  · rw [log_perform] at h
    exact level_of_mem_log_execute h

/-- A cycle tells what it is about to execute, if this is traced, and then what comes of it. -/
theorem log_step (m : Machine) :
    m.step.log =
      match m.word? with
      | none => []
      | some word => m.trace word ++ (m.interpret word).log := by
  rw [step]
  cases m.word? <;> rfl

/-- A cycle does not warn. -/
theorem level_ne_warn_of_mem_log_step (h : r ∈ m.step.log) : r.level ≠ .warn := by
  rw [log_step] at h
  split at h
  · cases h
  · rcases List.mem_append.1 h with h | h
    · rw [trace] at h
      split at h
      · obtain rfl := List.mem_singleton.1 h
        exact nofun
      · cases h
    · rw [level_of_mem_log_interpret h]
      exact nofun

/-- The warning that the result of a cycle calls for. -/
def warning : Except Fault Unit → List Record
  | .ok () => []
  | .error f => [.fault f]

/-- A tick tells what its cycle tells, and warns if the cycle fails. -/
theorem log_tick (hp : m.flags.paused = false) :
    m.tick.log = m.step.log ++ warning m.step.result := by
  rw [tick, if_neg (by simp [hp])]
  cases hr : m.step.result with
  | ok u => simp [hr, warning]
  | error f => simp [hr, warning]

/-- **A tick traces the word that it fetches,** and nothing if there is none. -/
theorem traced_tick (hp : m.flags.paused = false) (ht : m.flags.tracing = true) :
    m.tick.traced = (m.word?.map (.executing m.cycle m.pc)).toList := by
  have hwarning : (warning m.step.result).filter (·.level == .debug) = [] := by
    cases m.step.result <;> rfl
  rw [Outcome.traced, log_tick hp, List.filter_append, hwarning, List.append_nil, log_step]
  cases m.word? with
  | none => rfl
  | some word =>
    have hinterpret : (m.interpret word).log.filter (·.level == .debug) = [] := by
      refine List.filter_eq_nil_iff.2 fun r hr => ?_
      rw [level_of_mem_log_interpret hr]
      exact nofun
    simp only [List.filter_append, hinterpret, trace, ht, List.append_nil]
    rfl

/-- **A tick that fails warns of its fault,** last of all. -/
theorem warnsOfFailure_tick (m : Machine) : m.tick.WarnsOfFailure [] := by
  cases hp : m.flags.paused with
  | true =>
    rw [tick_of_paused hp]
    exact ⟨[], nofun, rfl⟩
  | false =>
    refine ⟨m.step.log, fun r hr => level_ne_warn_of_mem_log_step hr, ?_⟩
    rw [log_tick hp, (tick_of_running hp).1]
    cases m.step.result with
    | ok u => rfl
    | error f => exact ⟨.fault f, rfl, rfl, rfl⟩

/-- No instruction switches tracing on or off. -/
theorem tracing_tick (m : Machine) : m.tick.machine.flags.tracing = m.flags.tracing := by
  cases hx : m.executed? with
  | some i =>
    have hsame : Part.Same m m.tick.machine .tracing :=
      (executed?_eq_some_iff.1 hx).same_tick (notMem_writes (.inr rfl) i)
    exact hsame
  | none =>
    rw [machine_tick_of_executed?_eq_none hx]

/-! ## The records of a run -/

/-- Running `n` cycles attempts an instruction in tick `j`: no tick before it has failed,
and the machine is not paused. -/
def Attempts (m : Machine) (n j : Nat) : Prop :=
  j < n ∧ (∀ i < j, (m.ticked i).tick.result = .ok ()) ∧ (m.ticked j).flags.paused = false

/-- The first tick attempts an instruction if the machine is not paused. -/
theorem attempts_succ_zero : m.Attempts (n + 1) 0 ↔ m.flags.paused = false :=
  ⟨fun h => h.2.2, fun h => ⟨Nat.succ_pos n, fun _ hi => (Nat.not_lt_zero _ hi).elim, h⟩⟩

/-- A later tick attempts what it attempts of the machine after a first tick that succeeds. -/
theorem attempts_succ_succ :
    m.Attempts (n + 1) (j + 1) ↔ m.tick.result = .ok () ∧ m.tick.machine.Attempts n j := by
  constructor
  · rintro ⟨hj, hok, hp⟩
    exact ⟨hok 0 (Nat.succ_pos j), Nat.lt_of_succ_lt_succ hj,
      fun i hi => hok (i + 1) (Nat.succ_lt_succ hi), hp⟩
  · rintro ⟨hfirst, hj, hok, hp⟩
    refine ⟨Nat.succ_lt_succ hj, fun i hi => ?_, hp⟩
    cases i with
    | zero => exact hfirst
    | succ i => exact hok i (Nat.lt_of_succ_lt_succ hi)

/-- A paused machine attempts nothing. -/
theorem not_attempts_of_paused (hp : m.flags.paused = true) : ¬m.Attempts n j := by
  have hstill (k : Nat) : m.ticked k = m := by
    induction k with
    | zero => rfl
    | succ k ih => rw [ticked, tick_of_paused hp, Outcome.done, ih]
  rintro ⟨-, -, hrunning⟩
  rw [hstill, hp] at hrunning
  cases hrunning

/-- The trace of a run that goes on after its first tick begins with the record of that. -/
theorem traced_multistep_succ {i : Instr} (hi : m.Executes i) (ht : m.flags.tracing = true)
    (n : Nat) :
    ∃ word, m.word? = some word ∧ (m.multistep (n + 1)).traced =
      .executing m.cycle m.pc word :: (m.tick.machine.multistep n).traced := by
  rcases Option.bind_eq_some_iff.1 hi.instr with ⟨word, hword, -⟩
  refine ⟨word, hword, ?_⟩
  have htick : m.tick.log.filter (·.level == .debug) = [.executing m.cycle m.pc word] := by
    have := traced_tick hi.running ht
    rwa [hword] at this
  rw [hi.multistep_eq, Outcome.traced_after, htick]
  rfl

/-- The trace of a run that fails in its first tick is that of the tick. -/
theorem traced_multistep_of_error {f : Fault} (hf : m.tick.result = .error f)
    (ht : m.flags.tracing = true) (n : Nat) :
    (m.multistep (n + 1)).traced = (m.word?.map (.executing m.cycle m.pc)).toList := by
  rw [multistep_succ, hf, ← traced_tick (running_of_result_tick hf) ht]
  rfl

/-- **Record `j` of the trace is that of tick `j`.**  It is there if the tick attempts an
instruction and can fetch a word, and it shows that word, its address and the count of
cycles. -/
theorem getElem?_traced_multistep (ht : m.flags.tracing = true) (n j : Nat) (r : Record) :
    (m.multistep n).traced[j]? = some r ↔
      m.Attempts n j ∧ ∃ word, (m.ticked j).word? = some word ∧
        r = .executing (m.cycle + UInt64.ofNat j) (m.ticked j).pc word := by
  induction n generalizing m j with
  | zero => exact ⟨nofun, fun h => (Nat.not_lt_zero j h.1.1).elim⟩
  | succ n ih =>
    have hcycle : m.cycle + UInt64.ofNat 0 = m.cycle := UInt64.add_zero _
    rcases m.tick_trichotomy with hp | ⟨i, hi⟩ | ⟨f, hf⟩
    · rw [multistep_of_paused hp]
      exact ⟨nofun, fun h => (not_attempts_of_paused hp h.1).elim⟩
    · rcases traced_multistep_succ hi ht n with ⟨word, hword, htraced⟩
      rw [htraced]
      cases j with
      | zero =>
        rw [attempts_succ_zero, hcycle]
        simp only [List.getElem?_cons_zero, ticked, hword, hi.running, Option.some_inj,
          true_and, exists_eq_left']
        exact eq_comm
      | succ j =>
        have hnext : m.tick.machine.cycle + UInt64.ofNat j = m.cycle + UInt64.ofNat (j + 1) := by
          rw [hi.machine_tick, UInt64.ofNat_add, UInt64.add_comm (UInt64.ofNat j),
            ← UInt64.add_assoc]
          rfl
        rw [List.getElem?_cons_succ, attempts_succ_succ,
          ih ((tracing_tick m).trans ht), hnext, and_iff_right hi.success]
        rfl
    · rw [traced_multistep_of_error hf ht]
      cases j with
      | zero =>
        rw [attempts_succ_zero, hcycle, and_iff_right (running_of_result_tick hf)]
        cases hword : m.word? with
        | none => simp [ticked, hword]
        | some word => simp [ticked, hword, eq_comm]
      | succ j =>
        have hnone : (m.word?.map (Record.executing m.cycle m.pc)).toList[j + 1]? = none := by
          cases m.word? <;> rfl
        rw [hnone, attempts_succ_succ, hf]
        exact ⟨nofun, fun h => nomatch h.1.1⟩

/-- A tick that fails has fetched a word, unless that is what failed. -/
theorem length_word?_of_error {f : Fault} (hf : m.tick.result = .error f) :
    m.word?.toList.length = match f with
      | .pcOutOfBounds _ => 0
      | _ => 1 := by
  have hfault := fault?_of_result_tick hf
  rw [word?_eq]
  simp only [fault?] at hfault
  split_ifs at hfault ⊢ <;> (obtain rfl := Option.some.inj hfault; rfl)

/-- **The trace has a record for every instruction executed,** and one more if the run
fails on a word. -/
theorem length_traced_multistep (ht : m.flags.tracing = true) (n : Nat) :
    (m.multistep n).traced.length =
      match (m.multistep n).result with
      | .ok () => (HostCall.executed m (m.ticks n)).length
      | .error (.pcOutOfBounds _) => (HostCall.executed m (m.ticks n)).length
      | .error _ => (HostCall.executed m (m.ticks n)).length + 1 := by
  induction n generalizing m with
  | zero => rfl
  | succ n ih =>
    rcases m.tick_trichotomy with hp | ⟨i, hi⟩ | ⟨f, hf⟩
    · rw [(stopsAfter_zero_of_paused hp (n + 1)).executed, multistep_of_paused hp]
      rfl
    · rcases traced_multistep_succ hi ht n with ⟨word, -, htraced⟩
      have hresult : (m.multistep (n + 1)).result = (m.tick.machine.multistep n).result := by
        rw [hi.multistep_eq]
        rfl
      rw [htraced, hi.executed_ticks_eq, hresult, List.length_cons, List.length_cons,
        ih ((tracing_tick m).trans ht)]
      split <;> rfl
    · have hresult : (m.multistep (n + 1)).result = .error f := by rw [multistep_succ, hf]
      have hlength := length_word?_of_error hf
      rw [traced_multistep_of_error hf ht, hresult, (stopsAfter_zero_of_error hf n).executed,
        Option.length_toList, Option.isSome_map, ← Option.length_toList, hlength]
      cases f <;> rfl

/-- **A run that fails warns of its fault,** last of all. -/
theorem warnsOfFailure_multistep (m : Machine) (n : Nat) : (m.multistep n).WarnsOfFailure [] := by
  induction n generalizing m with
  | zero => exact ⟨[], nofun, rfl⟩
  | succ n ih =>
    rcases m.warnsOfFailure_tick with ⟨told, htold, htick⟩
    rw [multistep_succ]
    cases hr : m.tick.result with
    | ok u =>
      rw [hr] at htick
      simp only [List.append_nil] at htick
      exact (ih m.tick.machine).after (htick ▸ htold)
    | error f =>
      rw [hr] at htick
      exact ⟨told, htold, htick⟩

/-- A frame warns of the fault of its cycles, and then tells of the timers. -/
theorem warnsOfFailure_frame (m : Machine) (n : Nat) :
    (m.frame n).WarnsOfFailure [(m.frame n).machine.timersRecord] := by
  rcases m.warnsOfFailure_multistep n with ⟨told, htold, hrun⟩
  refine ⟨told, htold, ?_⟩
  simp only [frame]
  cases hr : (m.multistep n).result with
  | ok u =>
    rw [hr] at hrun
    rw [hrun, List.append_nil]
  | error f =>
    rw [hr] at hrun
    rcases hrun with ⟨w, hlevel, hmessage, hlast⟩
    exact ⟨w, hlevel, hmessage, by rw [hlast, List.append_assoc]; rfl⟩

/-- A call that runs no cycle warns of nothing, whether it succeeds or fails. -/
theorem level_ne_warn_of_runsNoCycle {c : HostCall} (hc : c.runsNoCycle = true)
    (h : r ∈ (c.apply m).log) : r.level ≠ .warn := by
  have hinfo : Level.info ≠ .warn := by decide
  have htrace : Level.trace ≠ .warn := by decide
  have hload (program : List UInt8) (h : r ∈ (m.load program).log) : r.level ≠ .warn := by
    rw [load] at h
    split at h
    · cases h
    · obtain rfl := List.mem_singleton.1 h
      exact hinfo
  cases c with
  | load program => exact hload program h
  | loadFile contents =>
    cases contents with
    | error e => cases h
    | ok program => exact hload program h
  | setKey key pressed =>
    have h : r ∈ (m.setKey key pressed).log := h
    rw [setKey] at h
    split at h
    · cases h
    · obtain rfl := List.mem_singleton.1 h
      exact htrace
  | reset =>
    obtain rfl := List.mem_singleton.1 h
    exact hinfo
  | tickTimers =>
    obtain rfl := List.mem_singleton.1 h
    exact htrace
  | tick | singlestep | multistep n | frame n => cases hc
  | _ => cases h

/-- **The trace is the run.**  While the tracing flag is up, record `j` of level `DEBUG` of
a run of cycles is there exactly if tick `j` attempts an instruction and fetches a word,
and it shows the count of cycles, which has grown by `j`, the program counter at which the
tick begins and the assembly text of the word; so there are as many as instructions
executed, and one more exactly if the run fails on anything but its program counter.
With the flag up or down, a tick, a single step, a run and a frame have one record of level
`WARN` if they fail, with the message of the fault, and none if they succeed; it is the
last one but for the timers of a frame.  No other call has one. -/
theorem trace_is_run (m : Machine) :
    (m.flags.tracing = true → ∀ n,
      (∀ j r, (m.multistep n).traced[j]? = some r ↔
        m.Attempts n j ∧ ∃ word, (m.ticked j).word? = some word ∧
          r = .executing (m.cycle + UInt64.ofNat j) (m.ticked j).pc word ∧
          r.message =
            (Text.Span.styled .faint
              (Text.decimalRight 3 (m.cycle + UInt64.ofNat j).toNat)).render ++ " " ++
            Text.hex 3 (m.ticked j).pc.toNat ++ ": " ++
            Text.padRight 36 (Word.disassemble word)) ∧
      (m.multistep n).traced.length =
        match (m.multistep n).result with
        | .ok () => (HostCall.executed m (m.ticks n)).length
        | .error (.pcOutOfBounds _) => (HostCall.executed m (m.ticks n)).length
        | .error _ => (HostCall.executed m (m.ticks n)).length + 1) ∧
    m.tick.WarnsOfFailure [] ∧
    m.singlestep.WarnsOfFailure [] ∧
    (∀ n, (m.multistep n).WarnsOfFailure []) ∧
    (∀ n, (m.frame n).WarnsOfFailure [(m.frame n).machine.timersRecord]) ∧
    ∀ c : HostCall, c.runsNoCycle = true → ∀ r ∈ (c.apply m).log, r.level ≠ .warn := by
  refine ⟨fun ht n => ⟨fun j r => ?_, length_traced_multistep ht n⟩, m.warnsOfFailure_tick,
    (m.setPaused false).warnsOfFailure_tick, m.warnsOfFailure_multistep, m.warnsOfFailure_frame,
    fun c hc r hr => level_ne_warn_of_runsNoCycle hc hr⟩
  rw [getElem?_traced_multistep ht]
  constructor
  · rintro ⟨hattempts, word, hword, rfl⟩
    exact ⟨hattempts, word, hword, rfl, rfl⟩
  · rintro ⟨hattempts, word, hword, hr, -⟩
    exact ⟨hattempts, word, hword, hr⟩

/-- An instruction, then a word that is none: both are traced, one is executed. -/
theorem trace_is_run_noInstruction :
    let m := HostCall.run (ofSeed 8) [.load [0x60, 0x05, 0xFF, 0xFF], .toggleTracing]
    m.flags.tracing = true ∧
      (HostCall.executed m (m.ticks 5)).length = 1 ∧
      (m.multistep 5).result = .error (.illegalInstruction 0x202 0xFFFF) ∧
      (m.multistep 5).traced.length = 2 ∧
      (m.multistep 5).traced[1]? = some (.executing 1 0x202 0xFFFF) := by
  intro m
  have htracing : m.flags.tracing = true := by decide +kernel
  have hfirst : m.Executes (.loadByte 0 0x05) := by decide +kernel
  have hfails : m.tick.machine.tick.result = .error (.illegalInstruction 0x202 0xFFFF) :=
    result_tick_of_fault? (by decide +kernel) (by decide +kernel)
  have hstops : m.StopsAfter 5 1 := (stopsAfter_zero_of_error hfails 3).succ hfirst
  have hexecuted : (HostCall.executed m (m.ticks 5)).length = 1 := hstops.executed
  have hresult : (m.multistep 5).result = .error (.illegalInstruction 0x202 0xFFFF) := by
    rw [hfirst.multistep_eq 4]
    show (m.tick.machine.multistep 4).result = _
    rw [m.tick.machine.multistep_succ 3, hfails]
  have hattempts : m.Attempts 5 1 :=
    attempts_succ_succ.2 ⟨hfirst.success, attempts_succ_zero.2 (by decide +kernel)⟩
  have hword : (m.ticked 1).word? = some 0xFFFF := by decide +kernel
  have hcycle : m.cycle + UInt64.ofNat 1 = 1 := by decide +kernel
  have hpc : (m.ticked 1).pc = 0x202 := by decide +kernel
  obtain ⟨hrecord, hlength⟩ := m.trace_is_run.1 htracing 5
  have hsecond := (hrecord 1 _).2 ⟨hattempts, 0xFFFF, hword, rfl, rfl⟩
  rw [hresult, hexecuted] at hlength
  rw [hcycle, hpc] at hsecond
  exact ⟨htracing, hexecuted, hresult, hlength, hsecond⟩

end Machine
end Chip8
