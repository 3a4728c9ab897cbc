/-
# A machine that waits stands at the instruction that waits

The flags of a wait for a key and the program counter belong together: as long as a
register waits, or a key is kept for it, the word at the program counter is the
instruction that waits (`WaitInPlace`).  Nothing is executed in between, so no jump,
call or store can come between a wait and its end.

| moment | why the wait stays in place |
| --- | --- |
| a tick that stalls | the instruction goes back to itself |
| a tick that takes the key | the wait is over |
| a tick that executes anything else | there was no wait |
| a load | there must be no wait before it |
| a reset | the wait is over |
| any other | program counter and memory are the same |

Only a load can break this: it may put another instruction in place of the one that
waits.
-/

import Chip8.Proofs.FreshKey

namespace Chip8
namespace Machine

/-- No wait for a key is under way, or the machine stands at the instruction that
waits. -/
def WaitInPlace (m : Machine) : Prop :=
  m.flags.Idle ∨ ∃ p x key?, m.WaitsAt p x key?

section Moment

variable {m : Machine} {c : HostCall}

/-- A machine at another instruction waits for no key. -/
theorem WaitInPlace.idle (h : m.WaitInPlace) {i : Instr} (hi : m.instr? = some i)
    (hne : ∀ x, i ≠ .awaitKey x) : m.flags.Idle := by
  rcases h with hidle | ⟨p, x, key?, hwait⟩
  · exact hidle
  · have hx : i = .awaitKey x := Option.some.inj (hi.symm.trans hwait.instr)
    exact (hne x hx).elim

/-- A key is kept only when no register waits any more. -/
theorem WaitInPlace.awaiting_eq_none (h : m.WaitInPlace) {key : Nat}
    (hkey : m.flags.pressed = some key) : m.flags.awaiting = none := by
  rcases h with hidle | ⟨p, x, key?, hwait⟩
  · exact hidle.awaiting
  · cases key? with
    | none =>
      have hnone : m.flags.pressed = none := hwait.flags.2
      rw [hnone] at hkey
      cases hkey
    | some first => exact hwait.flags.1

/-- A moment that passes a wait by leaves it in place, unless it loads a program over the
wait. -/
theorem WaitInPlace.of_passes (h : m.WaitInPlace) (hp : m.Passes c)
    (hload : c.isLoad = true → m.flags.Idle) : (c.apply m).machine.WaitInPlace := by
  by_cases hc : c.isLoad = true
  · exact .inl (hp.idle (hload hc))
  · rcases h with hidle | ⟨p, x, key?, hwait⟩
    · exact .inl (hp.idle hidle)
    · exact .inr ⟨p, x, _, hp.waitsAt hwait fun hl => (hc hl).elim⟩

/-- An instruction that waits stalls where it is, or takes the key and ends the
wait. -/
theorem WaitInPlace.of_executes (h : m.WaitInPlace) {x : Reg} (hx : m.Executes (.awaitKey x)) :
    m.tick.machine.WaitInPlace := by
  cases hk : m.flags.pressed with
  | none =>
    have hstall : m.Stalls x := stalls_iff.2 ⟨hx, hk⟩
    exact .inr ⟨m.pc, x, none, hstall.waitsAt⟩
  | some key =>
    have hawaiting := h.awaiting_eq_none hk
    refine .inl ?_
    rw [hx.machine_of_key hk]
    exact ⟨hawaiting, rfl⟩

/-- **Every moment leaves the wait in place,** a load if there is no wait. -/
theorem WaitInPlace.moment (h : m.WaitInPlace) (hm : c.isMoment = true)
    (hw : c.assignsWait = false) (hload : c.isLoad = true → m.flags.Idle) :
    (c.apply m).machine.WaitInPlace := by
  rcases passes_or_executes_or_reset (m := m) hm hw with hp | ⟨rfl, x, hx⟩ | rfl
  · exact h.of_passes hp hload
  · exact h.of_executes hx
  · exact .inl ⟨rfl, rfl⟩

end Moment

end Machine
end Chip8
