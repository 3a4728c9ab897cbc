/-
# A machine that fails is stuck

A cycle that fails has changed nothing.  Tried again it is the same cycle, and it
fails again: its fault is a matter of the program counter, the memory and the return
addresses (`fault?`), and apart from a load and a reset no call of the host gets at
those.

| call | on a machine that shows a fault |
| --- | --- |
| `singlestep` | fails with it, paused or not |
| `tick`, `multistep`, `frame` | fails with it, unless the machine is paused |
| a call for keys, timers or flags | runs no cycle |

What the host can do to the machine is to move its own parts, the flags, the timers
and the keys (`HostMoved`).  So however it goes on, every cycle that it lets the
machine try ends as the first one did (`fault_recurs`).
-/

import Chip8.Proofs.Faults
import Chip8.Proofs.Session

namespace Chip8
namespace HostCall

/-- The call neither loads a program nor resets the machine. -/
def keepsProgram : HostCall → Bool
  | .load _ | .loadFile _ | .reset => false
  | _ => true

/-- The call lets the machine try at least one cycle. -/
def triesCycle (m : Machine) : HostCall → Bool
  | .tick => !m.flags.paused
  | .singlestep => true
  | .multistep n | .frame n => !m.flags.paused && 0 < n
  | _ => false

end HostCall

namespace Machine

/-- `t` is `s` with nothing moved but the parts that a host moves between cycles: flags,
timers and keys. -/
def HostMoved (s t : Machine) : Prop :=
  t = { s with flags := t.flags, timers := t.timers, keypad := t.keypad }

section Stuck

variable {s t u m : Machine} {f : Fault} {c : HostCall}

/-- Between a machine and itself nothing has moved. -/
theorem HostMoved.refl (m : Machine) : m.HostMoved m := rfl

/-- Two moves of the host are a move of the host. -/
theorem HostMoved.trans (h : s.HostMoved t) (g : t.HostMoved u) : s.HostMoved u := by
  rw [HostMoved, g, h]

/-- The next fault has nothing to do with the parts of the host. -/
theorem HostMoved.fault?_eq (h : s.HostMoved t) : t.fault? = s.fault? := by
  rw [h]
  rfl

/-- **The faults of a cycle are the fatal ones.** -/
theorem isFatal_of_fault? (h : m.fault? = some f) : f.isFatal = true := by
  simp only [fault?] at h
  split_ifs at h <;> (obtain rfl := Option.some.inj h; rfl)

/-- A tick that fails shows its fault before. -/
theorem fault?_of_result_tick (h : m.tick.result = .error f) : m.fault? = some f := by
  cases hp : m.flags.paused with
  | true =>
    rw [tick_of_paused hp] at h
    cases h
  | false =>
    rw [(tick_of_running hp).1, result_step] at h
    cases hf : m.fault? with
    | none =>
      rw [hf] at h
      cases h
    | some g =>
      rw [hf] at h
      obtain rfl := Except.error.inj h
      rfl

/-- The tick of a machine that runs fails with the fault that lies ahead. -/
theorem result_tick_of_fault? (h : m.fault? = some f) (hp : m.flags.paused = false) :
    m.tick.result = .error f := by
  rw [(tick_of_running hp).1, result_step, h]
  rfl

/-- With a fault ahead a tick changes nothing, whether the machine is paused or not. -/
theorem machine_tick_of_fault? (h : m.fault? = some f) : m.tick.machine = m := by
  cases hp : m.flags.paused with
  | true => rw [tick_of_paused hp, Outcome.done]
  | false => exact machine_tick_of_error (result_tick_of_fault? h hp)

/-- **A single step fails whether the machine is paused or not,** and puts the pause
back. -/
theorem singlestep_of_fault? (h : m.fault? = some f) :
    m.singlestep.result = .error f ∧ m.singlestep.machine = m := by
  have hlifted : (m.setPaused false).fault? = some f := h
  refine ⟨result_tick_of_fault? hlifted rfl, ?_⟩
  show (m.setPaused false).tick.machine.setPaused _ = m
  rw [machine_tick_of_fault? hlifted]
  rfl

/-- **Of many cycles the first fails,** and the others are not tried. -/
theorem multistep_of_fault? (h : m.fault? = some f) (n : Nat) :
    (m.flags.paused = false → 0 < n → (m.multistep n).result = .error f) ∧
      (m.multistep n).machine = m := by
  cases hp : m.flags.paused with
  | true =>
    rw [multistep_of_paused hp]
    exact ⟨nofun, rfl⟩
  | false =>
    cases n with
    | zero => exact ⟨fun _ hn => (Nat.lt_irrefl 0 hn).elim, rfl⟩
    | succ n =>
      rw [multistep_succ, result_tick_of_fault? h hp]
      exact ⟨fun _ _ => rfl, machine_tick_of_fault? h⟩

/-- Moving a key is a move of the host. -/
theorem hostMoved_setKey (m : Machine) (key : Nat) (pressed : Bool) :
    m.HostMoved (m.setKey key pressed).machine := by
  rw [m.machine_setKey_eq key pressed]
  rfl

/-- **On a machine that shows a fault a call moves only what is the host's,** unless it
loads a program or resets the machine. -/
theorem hostMoved_apply (h : m.fault? = some f) (hc : c.keepsProgram = true) :
    m.HostMoved (c.apply m).machine := by
  cases c with
  | load | loadFile | reset => cases hc
  | setKey key pressed => exact m.hostMoved_setKey key pressed
  | tick =>
    show m.HostMoved m.tick.machine
    rw [machine_tick_of_fault? h]
    exact .refl m
  | singlestep =>
    show m.HostMoved m.singlestep.machine
    rw [(singlestep_of_fault? h).2]
    exact .refl m
  | multistep n =>
    show m.HostMoved (m.multistep n).machine
    rw [(multistep_of_fault? h n).2]
    exact .refl m
  | frame n =>
    show m.HostMoved (m.multistep n).machine.tickTimers
    rw [(multistep_of_fault? h n).2]
    rfl
  | _ => rfl

/-- **A call that tries a cycle of such a machine fails with the fault.** -/
theorem result_apply_of_fault? (h : m.fault? = some f) (hc : c.triesCycle m = true) :
    (c.apply m).result = .error f := by
  cases c with
  | tick =>
    have hp : m.flags.paused = false := by simpa [HostCall.triesCycle] using hc
    exact congrArg (Except.map _) (result_tick_of_fault? h hp)
  | singlestep => exact congrArg (Except.map _) (singlestep_of_fault? h).1
  | multistep n | frame n =>
    have hrun : m.flags.paused = false ∧ 0 < n := by simpa [HostCall.triesCycle] using hc
    exact congrArg (Except.map _) ((multistep_of_fault? h n).1 hrun.1 hrun.2)
  | _ => cases hc

/-- However many such calls are made, the machine shows the fault. -/
theorem hostMoved_run (h : m.fault? = some f) {calls : List HostCall}
    (hc : ∀ c ∈ calls, c.keepsProgram = true) : m.HostMoved (HostCall.run m calls) := by
  refine HostCall.run_induction (P := m.HostMoved) (.refl m) fun s hs c hmem => ?_
  have hshown : s.fault? = some f := hs.fault?_eq.trans h
  exact hs.trans (hostMoved_apply hshown (hc c hmem))

/-- **A fault of a cycle recurs.**  If a tick fails, its fault is fatal, and whatever the
host does afterwards short of loading a program or resetting the machine, it moves
nothing but flags, timers and keys, and every call that tries a cycle then fails with
the same fault, its numbers included: a tick of a running machine, a single step in any
case, some steps or a frame of some cycles of a running machine. -/
theorem fault_recurs (h : m.tick.result = .error f) {calls : List HostCall}
    (hc : ∀ c ∈ calls, c.keepsProgram = true) :
    f.isFatal = true ∧
      m.HostMoved (HostCall.run m.tick.machine calls) ∧
        ∀ c : HostCall, c.triesCycle (HostCall.run m.tick.machine calls) = true →
          (c.apply (HostCall.run m.tick.machine calls)).result = .error f := by
  have hshown : m.fault? = some f := fault?_of_result_tick h
  have hsame : m.tick.machine = m := machine_tick_of_error h
  have hmoved : m.HostMoved (HostCall.run m calls) := hostMoved_run hshown hc
  rw [hsame]
  refine ⟨isFatal_of_fault? hshown, hmoved, fun c htries => ?_⟩
  exact result_apply_of_fault? (hmoved.fault?_eq.trans hshown) htries

end Stuck

/-- A return without a call: after a key, a frame and a pause, a single step fails as the
first tick did. -/
theorem fault_recurs_emptyReturn :
    let m := HostCall.run (ofSeed 8) [.load [0x00, 0xEE]]
    let calls : List HostCall := [.setKey 5 true, .frame 3, .togglePaused, .tick]
    m.tick.result = .error (.stackUnderflow 0x200) ∧
      (HostCall.run m.tick.machine calls).flags.paused = true ∧
      (HostCall.singlestep.apply (HostCall.run m.tick.machine calls)).result =
        .error (.stackUnderflow 0x200) := by
  intro m calls
  have hfail : m.tick.result = .error (.stackUnderflow 0x200) :=
    result_tick_of_fault? (by decide +kernel) (by decide +kernel)
  have hkept : ∀ c ∈ calls, c.keepsProgram = true := by decide
  exact ⟨hfail, by decide +kernel, (fault_recurs hfail hkept).2.2 .singlestep rfl⟩

end Machine
end Chip8
