/-
# Properties that sessions preserve

A session is a list of host calls.  What it preserves is settled call by call,
and the calls that run cycles reduce to one cycle: a property that a cycle, a
change of the pause flag and a tick of the timers keep is kept by `tick`,
`singlestep`, `multistep` and `frame` (`Kept`), whether they succeed or fail.
`stateAt m calls k` is the machine after the first `k` calls.
-/

import Chip8.Machine.Call

namespace Chip8
namespace Machine

/-- A cycle and a change of the pause flag keep the property. -/
structure Kept (P : Machine → Prop) : Prop where
  step : ∀ m, P m → P m.step.machine
  setPaused : ∀ m paused, P m → P (m.setPaused paused)

namespace Kept

variable {P : Machine → Prop} {m : Machine}

/-- A tick keeps the property. -/
theorem tick (k : Kept P) (h : P m) : P m.tick.machine := by
  cases hp : m.flags.paused with
  | true => rwa [tick_of_paused hp]
  | false =>
    rw [(tick_of_running hp).2]
    exact k.step m h

/-- A single step keeps the property. -/
theorem singlestep (k : Kept P) (h : P m) : P m.singlestep.machine :=
  k.setPaused _ _ (k.tick (k.setPaused m false h))

/-- **Running cycles keeps the property,** however many there are. -/
theorem multistep (k : Kept P) (n : Nat) (h : P m) : P (m.multistep n).machine := by
  induction n generalizing m with
  | zero => exact h
  | succ n ih =>
    rw [multistep_succ]
    split
    · exact k.tick h
    · exact ih (k.tick h)

/-- A frame keeps the property if a tick of the timers does. -/
theorem frame (k : Kept P) (timers : ∀ m, P m → P m.tickTimers) (n : Nat) (h : P m) :
    P (m.frame n).machine :=
  timers _ (k.multistep n h)

end Kept
end Machine

namespace HostCall

/-- The machine after the first `k` calls. -/
def stateAt (m : Machine) (calls : List HostCall) (k : Nat) : Machine := run m (calls.take k)

/-- Before the first call the machine is as it was. -/
theorem stateAt_zero (m : Machine) (calls : List HostCall) : stateAt m calls 0 = m := by
  rw [stateAt, List.take_zero]
  rfl

/-- Each call is made to the machine that the calls before it left. -/
theorem stateAt_succ (m : Machine) (calls : List HostCall) {k : Nat} (hk : k < calls.length) :
    stateAt m calls (k + 1) = ((calls[k]).apply (stateAt m calls k)).machine := by
  rw [stateAt, List.take_succ_eq_append_getElem hk, run_append]
  rfl

/-- A call that is looked up in a session is made to the machine that the calls before it
left. -/
theorem stateAt_succ_of_getElem? {m : Machine} {calls : List HostCall} {k : Nat} {c : HostCall}
    (h : calls[k]? = some c) :
    stateAt m calls (k + 1) = (c.apply (stateAt m calls k)).machine := by
  obtain ⟨hk, rfl⟩ := List.getElem?_eq_some_iff.1 h
  exact stateAt_succ m calls hk

/-- After the last call the session is over. -/
theorem stateAt_of_length_le (m : Machine) (calls : List HostCall) {k : Nat}
    (hk : calls.length ≤ k) : stateAt m calls k = run m calls := by
  rw [stateAt, List.take_of_length_le hk]

/-- The next call is made; when there is none left, nothing changes any more. -/
theorem stateAt_succ_cases (m : Machine) (calls : List HostCall) (k : Nat) :
    (∃ c, calls[k]? = some c ∧
        stateAt m calls (k + 1) = (c.apply (stateAt m calls k)).machine) ∨
      stateAt m calls (k + 1) = stateAt m calls k := by
  cases hc : calls[k]? with
  | some c => exact .inl ⟨c, rfl, stateAt_succ_of_getElem? hc⟩
  | none =>
    have hend : calls.length ≤ k := List.getElem?_eq_none_iff.1 hc
    right
    rw [stateAt_of_length_le m calls hend, stateAt_of_length_le m calls (Nat.le_succ_of_le hend)]

/-- The first calls do not see those that follow. -/
theorem stateAt_append_of_le (m : Machine) {a : List HostCall} (b : List HostCall) {k : Nat}
    (hk : k ≤ a.length) : stateAt m (a ++ b) k = stateAt m a k := by
  rw [stateAt, List.take_append_of_le_length hk, stateAt]

/-- Calls that follow others begin where these end. -/
theorem stateAt_append_add (m : Machine) (a b : List HostCall) (k : Nat) :
    stateAt m (a ++ b) (a.length + k) = stateAt (run m a) b k := by
  rw [stateAt, List.take_length_add_append, run_append, stateAt]

/-- **What each call of a session keeps, the session keeps.** -/
theorem run_induction {P : Machine → Prop} {calls : List HostCall} {m : Machine} (h : P m)
    (keep : ∀ m, P m → ∀ c ∈ calls, P (c.apply m).machine) : P (run m calls) := by
  induction calls generalizing m with
  | nil => exact h
  | cons c calls ih =>
    exact ih (keep m h c (List.mem_cons_self ..))
      fun m hm d hd => keep m hm d (List.mem_cons_of_mem _ hd)

end HostCall
end Chip8
