/-
# A reset leaves no hidden state

A reset clears a machine in place, each part by its own rule: flags are lowered,
memory is filled with zeros and gets its font back, lists are emptied, registers
and timers are set to zero.  A part that it forgot, or a byte that it left, would
show in the run of the next program only.  It forgets none: after a reset a machine
is a fresh one in every part but the two that the host keeps.

| part | after a reset |
| --- | --- |
| tracing flag, random generator | as before |
| memory | the font in its first 80 bytes, then zeros |
| everything else | as in a fresh machine |

So whatever the machine has been through, it goes on as the fresh machine does
(`reset_forgets`), and two machines differ after a reset only if those two parts
differ (`reset_eq_reset_iff`).
-/

import Chip8.Machine.Call

namespace Chip8
namespace Memory

/-- **A fresh memory is the font, then zeros.** -/
theorem getElem_fresh {i : Nat} (hi : i < 4096) :
    fresh.bytes[i] = if h : i < font.length then font[i] else 0 := by
  rw [fresh, getElem_place]
  by_cases h : i < font.length
  · have hplaced : 0 ≤ i ∧ i < 0 + font.length := ⟨Nat.zero_le i, by omega⟩
    rw [dif_pos hplaced, dif_pos h]
    rfl
  · have hfree : ¬(0 ≤ i ∧ i < 0 + font.length) := by omega
    rw [dif_neg hfree, dif_neg h, zero, Vector.getElem_replicate]

end Memory

namespace Machine

/-- **Two machines are the same after a reset if they agree on the tracing flag and
the random generator,** and only then. -/
theorem reset_eq_reset_iff (s t : Machine) :
    s.reset = t.reset ↔ s.flags.tracing = t.flags.tracing ∧ s.random = t.random := by
  rw [reset_eq, reset_eq]
  constructor
  · intro h
    have htracing := congrArg (fun m => m.flags.tracing) h
    have hrandom := congrArg Machine.random h
    exact ⟨htracing, hrandom⟩
  · rintro ⟨htracing, hrandom⟩
    rw [htracing, hrandom]

/-- **A reset leaves no hidden state.**  A machine that is reset, whatever its state,
becomes the fresh machine with its tracing flag and with its random generator where
it stood.  Every later call does and answers the same on both, and memory holds the
font and zeros, whatever the program wrote. -/
theorem reset_forgets (m : Machine) :
    let s : Machine :=
      { fresh m.random with flags := { Flags.clear with tracing := m.flags.tracing } }
    HostCall.reset.apply m = ⟨.ok .done, s, [.reset]⟩ ∧
      (∀ (calls : List HostCall) (c : HostCall),
        c.apply (HostCall.run m.reset calls) = c.apply (HostCall.run s calls)) ∧
      ∀ i : Fin 4096,
        m.reset.memory.bytes[i] = if h : i.val < 80 then font[i.val] else 0 := by
  intro s
  have hreset : m.reset = s := m.reset_eq
  refine ⟨?_, fun calls c => ?_, fun i => ?_⟩
  · rw [HostCall.apply, hreset]
  · rw [hreset]
  · have hmemory : m.reset.memory = .fresh := m.memory.reset_eq
    rw [hmemory]
    exact Memory.getElem_fresh i.isLt

end Machine
end Chip8
