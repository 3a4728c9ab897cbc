/-
# Programs that halt

A jump to its own address halts the program, and nothing else does: a tick pauses a
running machine exactly if the word at the program counter is `1aaa` with the program
counter for `aaa` (`halts_iff`, `halts_iff_word?`).

The machine may stay there, for the program could only spin.  From a machine that is
about to halt, this is what becomes of it:

| calls | the machine |
| --- | --- |
| a tick | is paused and has counted a cycle |
| then `n` times a tick with the pause lifted | is paused and has counted `n` cycles more |
| or then ticks, runs and frames | stands still, but its timers tick once a frame |

`spun n` is the machine after `n` cycles of such a jump.
-/

import Mathlib.Logic.Function.Iterate
import Chip8.Proofs.CycleCount

namespace Chip8

/-- The jump at an address to that address. -/
theorem Instr.encode_jump (a : Address) : (Instr.jump a).encode = 0x1000 + a.toWord := by
  show UInt16.ofNat (0x1000 + a.val) = 0x1000 + UInt16.ofNat a.val
  rw [UInt16.ofNat_add]
  rfl

namespace HostCall

/-- The call runs cycles, and none unless the machine runs. -/
def runsCycles : HostCall → Bool
  | .tick | .multistep _ | .frame _ => true
  | _ => false

/-- The call runs a frame. -/
def isFrame : HostCall → Bool
  | .frame _ => true
  | _ => false

/-- The pause is lifted and the machine ticks, `n` times over. -/
def resumptions (n : Nat) : List HostCall :=
  (List.replicate n [assignPaused false, .tick]).flatten

end HostCall

namespace Machine

/-- The calls succeed, one after the other, and lead from the first machine to the last. -/
inductive Leads : Machine → List HostCall → Machine → Prop
  | nil (m : Machine) : Leads m [] m
  | cons {m t : Machine} {c : HostCall} {calls : List HostCall}
    (result : (c.apply m).result = .ok .done) (rest : Leads (c.apply m).machine calls t) :
    Leads m (c :: calls) t

namespace Leads

variable {m s t : Machine} {calls rest : List HostCall}

/-- Calls that lead to a machine run to it. -/
theorem run_eq (h : m.Leads calls t) : HostCall.run m calls = t := by
  induction h with
  | nil => rfl
  | cons _ _ ih => exact ih

/-- Calls that succeed can be made one after the other. -/
theorem append (h : m.Leads calls s) (g : s.Leads rest t) : m.Leads (calls ++ rest) t := by
  induction h with
  | nil => exact g
  | cons hr _ ih => exact .cons hr (ih g)

end Leads

/-- The next tick halts the program: the machine runs before it and is paused after it. -/
structure Halts (m : Machine) : Prop where
  running : m.flags.paused = false
  paused : m.tick.machine.flags.paused = true

/-- The machine after `n` cycles of a jump to itself: it is paused and the cycles are
counted. -/
def spun (m : Machine) (n : Nat) : Machine :=
  { m with
    flags := { m.flags with paused := true }
    cycle := m.cycle + UInt64.ofNat n }

section Halts

variable {m : Machine}

/-- A running machine executes the jump at its program counter, for a jump never fails. -/
theorem executes_jump {target : Address} (hp : m.flags.paused = false)
    (hi : m.instr? = some (.jump target)) : m.Executes (.jump target) :=
  executes_of_ok hp hi (result_jumpTo ..)

/-- A jump to itself pauses the machine and counts a cycle, and that is all. -/
theorem Executes.machine_of_selfJump {target : Address} (h : m.Executes (.jump target))
    (hself : target.toWord = m.pc) : m.tick.machine = m.spun 1 := by
  have hpast : target.toWord + 2 = m.advance.pc := congrArg (· + 2) hself
  rw [h.machine_tick, execute, machine_jumpTo, if_pos hpast, hself]
  rfl

/-- **A tick halts a program exactly by a jump to itself.** -/
theorem halts_iff : m.Halts ↔ ∃ target, m.Executes (.jump target) ∧ target.toWord = m.pc := by
  constructor
  · rintro ⟨hrun, hp⟩
    obtain ⟨i, hi⟩ : ∃ i, m.Executes i := by
      by_contra hnone
      rw [machine_tick_of_not_executes (not_exists.1 hnone), hrun] at hp
      cases hp
    obtain ⟨target, rfl, hself⟩ := hi.exists_jump_of_paused hp
    exact ⟨target, hi, hself⟩
  · rintro ⟨target, hi, hself⟩
    refine ⟨hi.running, ?_⟩
    rw [hi.machine_of_selfJump hself]
    rfl

/-- The word of a jump to itself is `1000` and its address.  A word that was fetched lies in
memory, so its address has three digits. -/
theorem halts_iff_word? : m.Halts ↔ m.flags.paused = false ∧ m.word? = some (0x1000 + m.pc) := by
  rw [halts_iff]
  constructor
  · rintro ⟨target, hi, hself⟩
    obtain ⟨word, hw, hd⟩ := Option.bind_eq_some_iff.1 hi.instr
    rw [hw, ← Instr.encode_of_decode hd, Instr.encode_jump, hself]
    exact ⟨hi.running, rfl⟩
  · rintro ⟨hp, hw⟩
    have hlt : m.pc.toNat + 1 < 4096 := (Option.dite_none_right_eq_some.1 hw).1
    let target : Address := ⟨m.pc.toNat, by omega⟩
    have hself : target.toWord = m.pc := UInt16.toNat_inj.1 target.toNat_toWord
    have hi : m.instr? = some (.jump target) := by
      rw [instr?, hw, Option.bind_some, ← hself, ← Instr.encode_jump, Instr.decode_encode]
    exact ⟨target, executes_jump hp hi, hself⟩

/-- The tick that halts a program is a cycle of its jump. -/
theorem Halts.machine_tick (h : m.Halts) : m.tick.machine = m.spun 1 := by
  obtain ⟨target, hi, hself⟩ := halts_iff.1 h
  exact hi.machine_of_selfJump hself

/-- The tick that halts the program succeeds. -/
theorem Halts.result_tick (h : m.Halts) : m.tick.result = .ok () := by
  obtain ⟨target, hi, -⟩ := halts_iff.1 h
  exact hi.success

/-- **A jump to itself is there again when the pause is lifted.** -/
theorem Halts.resumed (h : m.Halts) (n : Nat) : ((m.spun n).setPaused false).Halts := by
  obtain ⟨target, hi, hself⟩ := halts_iff.1 h
  exact halts_iff.2 ⟨target, executes_jump rfl hi.instr, hself⟩

/-- One more cycle of the jump. -/
theorem spun_succ (m : Machine) (n : Nat) :
    ((m.spun n).setPaused false).spun 1 = m.spun (n + 1) := by
  have hc : m.cycle + UInt64.ofNat n + UInt64.ofNat 1 = m.cycle + UInt64.ofNat (n + 1) := by
    rw [UInt64.add_assoc, UInt64.ofNat_add]
  exact congrArg (fun c => { m.spun n with cycle := c }) hc

/-- **Lifting the pause again and again only counts cycles.** -/
theorem Halts.leads_resumptions (h : m.Halts) (k n : Nat) :
    (m.spun k).Leads (HostCall.resumptions n) (m.spun (k + n)) := by
  induction n generalizing k with
  | zero => exact .nil _
  | succ n ih =>
    have hagain : ((m.spun k).setPaused false).Halts := h.resumed k
    have hcycle : (m.spun k).Leads [HostCall.assignPaused false, .tick] (m.spun (k + 1)) := by
      refine .cons rfl (.cons ?_ ?_)
      · exact congrArg (Except.map fun _ => Reply.done) hagain.result_tick
      · have ht : ((m.spun k).setPaused false).tick.machine = m.spun (k + 1) := by
          rw [hagain.machine_tick, spun_succ]
        exact ht ▸ .nil _
    rw [HostCall.resumptions, List.replicate_succ, List.flatten_cons]
    have hsum : k + (n + 1) = k + 1 + n := by omega
    rw [hsum]
    exact hcycle.append (ih (k + 1))

/-- A paused machine stands still under a tick, a run and a frame, but for the timers,
which a frame lets tick. -/
theorem apply_of_paused (h : m.flags.paused = true) {c : HostCall} (hc : c.runsCycles = true) :
    (c.apply m).result = .ok .done ∧
      (c.apply m).machine =
        { m with timers := Timers.tick^[if c.isFrame then 1 else 0] m.timers } := by
  cases c with
  | tick =>
    rw [HostCall.apply, tick_of_paused h]
    exact ⟨rfl, rfl⟩
  | multistep n =>
    rw [HostCall.apply, multistep_of_paused h]
    exact ⟨rfl, rfl⟩
  | frame n =>
    rw [HostCall.apply, frame, multistep_of_paused h]
    exact ⟨rfl, rfl⟩
  | _ => cases hc

/-- **A paused machine stands still under ticks, runs and frames,** but for its timers,
which tick once a frame. -/
theorem leads_of_paused (h : m.flags.paused = true) {calls : List HostCall}
    (hcalls : ∀ c ∈ calls, c.runsCycles = true) :
    m.Leads calls { m with timers := Timers.tick^[calls.countP HostCall.isFrame] m.timers } := by
  induction calls generalizing m with
  | nil => exact .nil m
  | cons c calls ih =>
    obtain ⟨hc, hrest⟩ := List.forall_mem_cons.1 hcalls
    obtain ⟨hresult, hmachine⟩ := apply_of_paused h hc
    refine .cons hresult ?_
    rw [hmachine, List.countP_cons, Function.iterate_add_apply]
    exact ih h hrest

end Halts

/-- **Halting is noticed exactly, and loses nothing.**  A tick halts a program exactly if
it executes a jump to its own address.  From there ticks, runs and frames succeed and
leave the machine as it is, but for a tick of the timers in each frame.  Had the program
gone on it would have fared no better: lifting the pause and ticking succeeds as often as
one likes, and only counts the cycles. -/
theorem halt_exact_and_lossless (m : Machine) :
    (m.Halts ↔ ∃ target, m.Executes (.jump target) ∧ target.toWord = m.pc) ∧
      (m.Halts →
        (∀ calls, (∀ c ∈ calls, c.runsCycles = true) →
          m.tick.machine.Leads calls { m.tick.machine with
            timers := Timers.tick^[calls.countP HostCall.isFrame] m.tick.machine.timers }) ∧
        ∀ n,
          let t : Machine := { m with
            flags := { m.flags with paused := true }
            cycle := m.cycle + UInt64.ofNat (n + 1) }
          m.tick.machine.Leads (HostCall.resumptions n) t ∧
            (m.cycle.toNat + (n + 1) < UInt64.size →
              t.cycle.toNat = m.cycle.toNat + (n + 1))) := by
  refine ⟨halts_iff, fun h => ⟨fun calls hcalls => leads_of_paused h.paused hcalls, ?_⟩⟩
  intro n t
  refine ⟨?_, toNat_add_ofNat⟩
  have hspin : (m.spun 1).Leads (HostCall.resumptions n) (m.spun (1 + n)) :=
    h.leads_resumptions 1 n
  rw [h.machine_tick]
  rwa [Nat.add_comm] at hspin

/-- A machine about to jump to itself, with timers that run. -/
def halting : Machine :=
  { HostCall.run (ofSeed 8) [.load [0x12, 0x00]] with timers := ⟨9, 1⟩ }

/-- It stands still for two frames, and three more cycles of it are only counted. -/
theorem halt_exact_and_lossless_halting :
    halting.Halts ∧
      halting.tick.machine.Leads [.frame 3, .tick, .multistep 7, .frame 0]
        { halting.tick.machine with timers := ⟨7, 0⟩ } ∧
      HostCall.run halting.tick.machine (HostCall.resumptions 3) =
        { halting with flags := { halting.flags with paused := true }, cycle := 4 } := by
  have h : halting.Halts := ⟨by decide +kernel, by decide +kernel⟩
  have htimers : Timers.tick^[2] halting.tick.machine.timers = ⟨7, 0⟩ := by decide +kernel
  obtain ⟨hstill, hspin⟩ := (halt_exact_and_lossless halting).2 h
  refine ⟨h, ?_, (hspin 3).1.run_eq⟩
  rw [← htimers]
  exact hstill [.frame 3, .tick, .multistep 7, .frame 0] (by decide)

end Machine
end Chip8
