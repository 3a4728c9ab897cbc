/-
# The place in the random stream

The random numbers of a machine are the words of one stream, which its seed fixes.
The generator is a place in that stream, and the place is the number of words drawn
so far.  Which of its words an instruction gets is therefore a matter of how many
instructions have drawn before it, in the whole life of the machine:

| moment | words drawn |
| --- | --- |
| a tick that executes `random`, whatever its mask | one |
| a tick that executes another instruction | none |
| a tick that fails, or of a paused machine | none |
| any call that runs no cycle, a reset too | none |

A moment moves the generator on by what it draws (`random_moment`), a timeline by
what its moments draw together (`random_run`), and so a machine that was built from a
seed stands at the count of its draws (`random_stream_in_order`).
-/

import Chip8.Proofs.Arithmetic
import Chip8.Proofs.Overlay

namespace Chip8

namespace Random

/-- Draws add up. -/
theorem skip_skip (r : Random) (k n : Nat) : (r.skip k).skip n = r.skip (k + n) :=
  congrArg (Random.mk r.seed) (Nat.add_assoc r.drawn k n)

/-- The place in the stream of a seed is the number of draws. -/
theorem skip_ofSeed (seed : UInt64) (n : Nat) : (ofSeed seed).skip n = ⟨seed, n⟩ :=
  congrArg (Random.mk seed) (Nat.zero_add n)

end Random

namespace HostCall

/-- How many of the instructions that moments execute draw a random number. -/
def draws (m : Machine) (acts : List HostCall) : Nat := (executed m acts).countP Instr.draws

/-- What two sessions draw one after the other adds up. -/
theorem draws_append (m : Machine) (a b : List HostCall) :
    draws m (a ++ b) = draws m a + draws (run m a) b := by
  rw [draws, executed_append, List.countP_append]
  rfl

/-- What a first moment draws and what the others draw adds up. -/
theorem draws_cons (m : Machine) (c : HostCall) (acts : List HostCall) :
    draws m (c :: acts) = draws m [c] + draws (c.apply m).machine acts :=
  draws_append m [c] acts

end HostCall

namespace Machine

variable {m : Machine}

/-- A tick that executes an instruction draws a word if the instruction does. -/
theorem Executes.random_tick {i : Instr} (h : m.Executes i) :
    m.tick.machine.random = m.random.skip (if i.draws then 1 else 0) := by
  rw [h.machine_tick]
  exact m.advance.random_execute i

/-- A tick draws if it executes the instruction for a random number. -/
theorem draws_tick (m : Machine) :
    HostCall.draws m [.tick] = m.executed?.toList.countP Instr.draws := by
  show (m.executed?.toList ++ []).countP _ = _
  rw [List.append_nil]

/-- **A tick moves the generator on by the words that it draws.** -/
theorem random_tick (m : Machine) :
    m.tick.machine.random = m.random.skip (HostCall.draws m [.tick]) := by
  rw [draws_tick]
  cases hx : m.executed? with
  | some i =>
    have hi : m.Executes i := executed?_eq_some_iff.1 hx
    rw [hi.random_tick, Option.toList_some, List.countP_singleton]
  | none =>
    rw [machine_tick_of_executed?_eq_none hx]
    rfl

/-- **A moment moves the generator on by the words that it draws.** -/
theorem random_moment (m : Machine) {c : HostCall} (hc : c.isMoment = true) :
    (c.apply m).machine.random = m.random.skip (HostCall.draws m [c]) := by
  cases c with
  | tick => exact m.random_tick
  | singlestep | multistep n | frame n => cases hc
  | _ => exact (m.blind_apply rfl).random_machine

/-- **Moments move the generator on by the words that they draw together.** -/
theorem random_run (m : Machine) {acts : List HostCall} (hacts : ∀ c ∈ acts, c.isMoment = true) :
    (HostCall.run m acts).random = m.random.skip (HostCall.draws m acts) := by
  induction acts generalizing m with
  | nil => rfl
  | cons c acts ih =>
    have hc := m.random_moment (hacts c (List.mem_cons_self ..))
    have hrest := ih (c.apply m).machine fun d hd => hacts d (List.mem_cons_of_mem _ hd)
    rw [HostCall.draws_cons, ← Random.skip_skip, ← hc, ← hrest]
    rfl

/-- The generator at any moment of a session has moved on by what was drawn before. -/
theorem random_stateAt (m : Machine) (calls : List HostCall) (n : Nat) :
    (HostCall.stateAt m (HostCall.timeline m calls) n).random =
      m.random.skip (HostCall.draws m ((HostCall.timeline m calls).take n)) :=
  m.random_run fun _ hc => HostCall.isMoment_of_timeline (List.mem_of_mem_take hc)

/-- The instruction `random` puts the byte that the generator stands at, masked, into
its register. -/
theorem Executes.reg_random {x : Reg} {mask : UInt8} (h : m.Executes (.random x mask)) :
    m.tick.machine.reg x = Random.byteAt m.random.seed m.random.drawn &&& mask := by
  rw [h.machine_tick]
  show (m.advance.setReg x (m.random.draw.1 &&& mask)).reg x = _
  rw [reg_setReg, if_pos rfl]
  rfl

/-- **A machine draws the words of its stream in order.**  Take any session with a
machine that was built from a seed.  The `random` that is executed after `k` others
puts the low byte of word `k` of the stream, masked, into its register, and is
counted itself.  At every moment the generator stands at the number of them executed
so far, so nothing else moves it, and the session leaves it at the number of all. -/
theorem random_stream_in_order (seed : UInt64) (calls : List HostCall) :
    let m := ofSeed seed
    let acts := HostCall.timeline m calls
    let before (n : Nat) := HostCall.draws m (acts.take n)
    (∀ n x mask, m.TickAt acts n (·.Executes (.random x mask)) →
      (HostCall.stateAt m acts (n + 1)).reg x =
          (Keystream.word seed (before n)).toUInt8 &&& mask ∧
        before (n + 1) = before n + 1) ∧
      (∀ n, (HostCall.stateAt m acts n).random = ⟨seed, before n⟩) ∧
      (HostCall.run m calls).random = ⟨seed, HostCall.draws m acts⟩ := by
  intro m acts before
  have hplace (n : Nat) : (HostCall.stateAt m acts n).random = ⟨seed, before n⟩ := by
    rw [m.random_stateAt calls n]
    exact Random.skip_ofSeed seed (before n)
  refine ⟨?_, hplace, ?_⟩
  · rintro n x mask ⟨hn, hx⟩
    have htick : HostCall.stateAt m acts (n + 1) = (HostCall.stateAt m acts n).tick.machine :=
      HostCall.stateAt_succ_of_getElem? hn
    constructor
    · rw [htick, hx.reg_random, hplace n]
      rfl
    · have hafter := hplace (n + 1)
      rw [htick, hx.random_tick, hplace n] at hafter
      exact (congrArg Random.drawn hafter).symm
  · have hend := hplace acts.length
    have hwhole : before acts.length = HostCall.draws m acts := by
      show HostCall.draws m (acts.take acts.length) = _
      rw [List.take_length]
    rwa [hwhole, HostCall.stateAt_of_length_le m acts (Nat.le_refl _),
      HostCall.run_timeline] at hend

/-- Two draws, the second with an empty mask, then a tick that fails, one that finds
the machine paused, a reset and another program: its draw is the third of the stream. -/
theorem random_stream_in_order_acrossReset :
    let m := ofSeed 8
    let calls : List HostCall :=
      [.load [0xC0, 0xFF, 0xC1, 0x00, 0xFF, 0xFF], .tick, .tick, .tick, .togglePaused, .tick, .reset,
        .load [0xC2, 0x0F], .tick]
    let acts := HostCall.timeline m calls
    m.TickAt acts 8 (·.Executes (.random 2 0x0F)) ∧
      HostCall.draws m (acts.take 8) = 2 ∧
      (HostCall.stateAt m acts 9).reg 2 = (Keystream.word 8 2).toUInt8 &&& 0x0F := by
  intro m calls acts
  have hloaded : HostCall.stateAt m acts 8 =
      ((HostCall.stateAt m acts 6).reset.load [0xC2, 0x0F]).machine := rfl
  have hx : (HostCall.stateAt m acts 8).Executes (.random 2 0x0F) := by
    rw [hloaded, reset_eq]
    decide +kernel
  have hbefore : HostCall.draws m (acts.take 8) = 2 := by decide +kernel
  have hat : m.TickAt acts 8 (·.Executes (.random 2 0x0F)) := ⟨rfl, hx⟩
  have hreg : (HostCall.stateAt m acts 9).reg 2 =
      (Keystream.word 8 (HostCall.draws m (acts.take 8))).toUInt8 &&& 0x0F :=
    ((random_stream_in_order 8 calls).1 8 2 0x0F hat).1
  rw [hbefore] at hreg
  exact ⟨hat, hbefore, hreg⟩

end Machine
end Chip8
