/-
# Calls and returns are bracketed

A subroutine called at `p` leaves the return addresses below its own alone: as
long as it runs, the stack is the one before the call, `p + 2`, and whatever the
subroutine has called in turn.  When the stack first is as short as before the
call, it is the stack before the call, and the program counter is `p + 2`
(`stack_between_call_and_return`).

This holds for every program, also for one that rewrites itself or is replaced
while it runs, because it hangs on the stack alone.  What one cycle does to a
machine inside the subroutine is `Inside.step`: it stays inside or it comes back.
The host may do anything between the cycles but reset the machine.
-/

import Chip8.Proofs.Control
import Chip8.Proofs.Faults
import Chip8.Proofs.Session

namespace Chip8
namespace Machine

/-- The machine is in a subroutine that goes back to `back`, with the return
addresses `below` under it. -/
def Inside (back : UInt16) (below : List UInt16) (m : Machine) : Prop :=
  back :: below <:+ m.returns

/-- The machine has come back from that subroutine. -/
def Back (back : UInt16) (below : List UInt16) (m : Machine) : Prop :=
  m.returns = below ∧ m.pc = back

variable {back : UInt16} {below : List UInt16} {m : Machine}

/-- Inside of a subroutine there is more on the stack than when it was called. -/
theorem Inside.length_lt (h : m.Inside back below) : below.length < m.returns.length :=
  h.length_le

/-- An instruction stays inside a subroutine or comes back from it: only a return
from the subroutine itself finds its return address on top. -/
theorem Inside.execute (h : m.Inside back below) (i : Instr) :
    (m.execute i).machine.Inside back below ∨ (m.execute i).machine.Back back below := by
  rw [Inside, Back, returns_execute, pc_execute]
  cases i with
  | call target =>
    left
    by_cases hroom : m.returns.length < stackDepth
    · simp only [hroom, if_true]
      exact h.trans (List.suffix_cons ..)
    · simp only [hroom, if_false]
      exact h
  | ret =>
    obtain ⟨above, ha⟩ := h
    cases above with
    | nil =>
      have ha : m.returns = back :: below := ha.symm
      right
      simp only [ha, List.tail_cons, List.headD_cons, and_self]
    | cons a above =>
      have ha : m.returns = a :: (above ++ back :: below) := ha.symm
      left
      simp only [ha, List.tail_cons]
      exact List.suffix_append ..
  | _ => exact .inl h

/-- **A cycle stays inside a subroutine or comes back from it.** -/
theorem Inside.step (h : m.Inside back below) :
    m.step.machine.Inside back below ∨ m.step.machine.Back back below := by
  obtain ⟨_, _, hm⟩ | ⟨i, _, _, _, hm⟩ := m.step_cases
  · rw [hm]
    exact .inl h
  · rw [hm]
    exact Inside.execute (m := m.advance) h i

/-- **A tick inside of a subroutine stays inside or comes back from it.** -/
theorem Inside.tick (h : m.Inside back below) :
    m.tick.machine.Inside back below ∨ m.tick.machine.Back back below := by
  cases hp : m.flags.paused with
  | true => rw [tick_of_paused hp]; exact .inl h
  | false => rw [(tick_of_running hp).2]; exact h.step

/-- A call that succeeds enters a subroutine that goes back behind the call. -/
theorem inside_execute_call {target : Address} (h : (m.execute (.call target)).result = .ok ()) :
    (m.execute (.call target)).machine.Inside m.pc m.returns := by
  have hroom : m.returns.length < stackDepth := by
    refine Nat.lt_of_not_le fun hfull => ?_
    rw [result_execute] at h
    simp only [hfull, if_true, reduceCtorEq] at h
  rw [Inside, returns_execute]
  simp only [hroom, if_true]
  exact List.suffix_refl _

/-- A call that succeeds leads into the subroutine. -/
theorem inside_tick_of_call {target : Address} (hp : m.flags.paused = false)
    (hi : m.instr? = some (.call target)) (hok : m.tick.result = .ok ()) :
    m.tick.machine.Inside (m.pc + 2) m.returns := by
  obtain ⟨hr, hm⟩ := tick_of_running hp
  obtain ⟨f, hf, _⟩ | ⟨i, hi', hx, _, hs⟩ := m.step_cases
  · rw [hr, hf] at hok
    cases hok
  · obtain rfl := Option.some.inj (hi'.symm.trans hi)
    rw [hm, hs]
    exact inside_execute_call (m := m.advance) hx

/-- Loading a program leaves the stack alone. -/
theorem returns_load (m : Machine) (program : List UInt8) :
    (m.load program).machine.returns = m.returns := by
  rw [machine_load_eq]

/-- Moving a key leaves the stack alone. -/
theorem returns_setKey (m : Machine) (key : Nat) (pressed : Bool) :
    (m.setKey key pressed).machine.returns = m.returns := by
  rw [machine_setKey_eq]

end Machine

/-- The call runs one cycle at most and does not reset the machine. -/
def HostCall.isSmall : HostCall → Bool
  | .reset | .multistep _ | .frame _ => false
  | _ => true

namespace Machine

variable {back : UInt16} {below : List UInt16} {m : Machine}

/-- A host call of one cycle at most stays inside a subroutine or comes back from
it. -/
theorem Inside.apply (h : m.Inside back below) {c : HostCall} (hc : c.isSmall = true) :
    (c.apply m).machine.Inside back below ∨ (c.apply m).machine.Back back below := by
  cases c with
  | load program =>
    left
    show _ <:+ (m.load program).machine.returns
    rw [returns_load]
    exact h
  | loadFile contents =>
    left
    cases contents with
    | error e => exact h
    | ok program =>
      show _ <:+ (m.load program).machine.returns
      rw [returns_load]
      exact h
  | setKey key pressed =>
    left
    show _ <:+ (m.setKey key pressed).machine.returns
    rw [returns_setKey]
    exact h
  | tick => exact h.tick
  | singlestep => exact Inside.tick (m := m.setPaused false) h
  | reset | multistep n | frame n => cases hc
  | _ => exact .inl h

/-- **Until the first state whose stack is as short as before the call, the
machine is inside the subroutine,** and in that state it has come back. -/
theorem Inside.stateAt (h : m.Inside back below) {calls : List HostCall}
    (hc : ∀ c ∈ calls, c.isSmall = true) {n : Nat}
    (hopen : ∀ k < n, (HostCall.stateAt m calls k).returns.length ≠ below.length) :
    (∀ k < n, (HostCall.stateAt m calls k).Inside back below) ∧
      ((HostCall.stateAt m calls n).Inside back below ∨
        (HostCall.stateAt m calls n).Back back below) := by
  induction n with
  | zero =>
    rw [HostCall.stateAt_zero]
    exact ⟨fun k hk => (Nat.not_lt_zero k hk).elim, .inl h⟩
  | succ n ih =>
    obtain ⟨hbefore, hnow⟩ := ih fun k hk => hopen k (Nat.lt_succ_of_lt hk)
    have hin : (HostCall.stateAt m calls n).Inside back below := by
      obtain hin | hback := hnow
      · exact hin
      · exact (hopen n (Nat.lt_succ_self n) (congrArg List.length hback.1)).elim
    refine ⟨fun k hk => ?_, ?_⟩
    · obtain hk | rfl := Nat.lt_succ_iff_lt_or_eq.1 hk
      · exact hbefore k hk
      · exact hin
    · by_cases hn : n < calls.length
      · rw [HostCall.stateAt_succ m calls hn]
        exact hin.apply (hc _ (List.getElem_mem hn))
      · rw [HostCall.stateAt_of_length_le m calls (Nat.le_succ_of_le (Nat.not_lt.1 hn)),
          ← HostCall.stateAt_of_length_le m calls (Nat.not_lt.1 hn)]
        exact .inl hin

/-- Inside a subroutine the stack begins with the one before the call and the
return address. -/
theorem Inside.prefix_stack {s : Machine} (h : m.Inside back s.returns) :
    s.stack ++ [back] <+: m.stack := by
  have := List.reverse_prefix.2 h
  rwa [List.reverse_cons] at this

/-- **Calls and returns are bracketed.**  After a call at `m.pc`, whatever the host
does cycle by cycle, as long as the stack is longer than before the call it
begins with the stack before the call and the return address; and where it
first is as short, it is the stack before the call, and the program counter is
behind the call. -/
theorem stack_between_call_and_return {target : Address} (hp : m.flags.paused = false)
    (hi : m.instr? = some (.call target)) (hok : m.tick.result = .ok ()) {calls : List HostCall}
    (hc : ∀ c ∈ calls, c.isSmall = true) {n : Nat}
    (hopen : ∀ k < n, (HostCall.stateAt m.tick.machine calls k).stack.length ≠ m.stack.length) :
    (∀ k < n, m.stack ++ [m.pc + 2] <+: (HostCall.stateAt m.tick.machine calls k).stack) ∧
      ((HostCall.stateAt m.tick.machine calls n).stack.length = m.stack.length →
        (HostCall.stateAt m.tick.machine calls n).stack = m.stack ∧
          (HostCall.stateAt m.tick.machine calls n).pc = m.pc + 2) := by
  simp only [length_stack] at hopen ⊢
  obtain ⟨hbefore, hnow⟩ := (inside_tick_of_call hp hi hok).stateAt hc hopen
  refine ⟨fun k hk => (hbefore k hk).prefix_stack, fun hlen => ?_⟩
  obtain hin | ⟨hr, hpc⟩ := hnow
  · exact (Nat.lt_irrefl _ (hlen ▸ hin.length_lt)).elim
  · exact ⟨congrArg List.reverse hr, hpc⟩

/-- A machine at a call of a subroutine that calls another one; both return at
once. -/
def nestedCalls : Machine :=
  HostCall.run (ofSeed 8) [.load [0x22, 0x04, 0x12, 0x02, 0x22, 0x08, 0x00, 0xEE, 0x00, 0xEE]]

/-- The inner call and both returns, while the host does other things, too. -/
def nestedReturns : List HostCall := [.tick, .setKey 0xB true, .singlestep, .tickTimers, .tick]

/-- The subroutine of `nestedCalls` has come back after five calls of the host. -/
theorem stack_between_nestedCalls :
    (nestedCalls.flags.paused = false ∧ nestedCalls.instr? = some (.call 0x204) ∧
        nestedCalls.tick.result = .ok ()) ∧
      (∀ k < 5, nestedCalls.stack ++ [nestedCalls.pc + 2] <+:
        (HostCall.stateAt nestedCalls.tick.machine nestedReturns k).stack) ∧
      (HostCall.stateAt nestedCalls.tick.machine nestedReturns 5).stack = nestedCalls.stack ∧
      (HostCall.stateAt nestedCalls.tick.machine nestedReturns 5).pc = nestedCalls.pc + 2 := by
  have hp : nestedCalls.flags.paused = false := by decide +kernel
  have hi : nestedCalls.instr? = some (.call 0x204) := by decide +kernel
  have hf : nestedCalls.fault? = none := by decide +kernel
  have hok : nestedCalls.tick.result = .ok () := by
    rw [(tick_of_running hp).1, result_step, hf, Option.elim_none]
  have hc : ∀ c ∈ nestedReturns, c.isSmall = true := by decide
  have hopen : ∀ k < 5, (HostCall.stateAt nestedCalls.tick.machine nestedReturns k).stack.length ≠
      nestedCalls.stack.length := by decide +kernel
  have hlen : (HostCall.stateAt nestedCalls.tick.machine nestedReturns 5).stack.length =
      nestedCalls.stack.length := by decide +kernel
  obtain ⟨hbefore, hback⟩ := stack_between_call_and_return hp hi hok hc hopen
  exact ⟨⟨hp, hi, hok⟩, hbefore, hback hlen⟩

end Machine
end Chip8
