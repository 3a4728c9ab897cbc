/-
# What a program does not look at

Two parts of a machine are not for its program: the tracing flag, by which the host
asks for a record of every cycle, and the random generator.

| part | read by | written by |
| --- | --- | --- |
| tracing flag | the trace of a cycle | the calls that set flags |
| random generator | `random` | `random` |

An instruction other than `random` is blind to them: replacing both parts before it
or after it comes to the same (`blind_execute`).  So are the calls that run no cycle,
but that some of them set the flag (`blind_apply`).  A blind call keeps both parts,
since a machine is itself with its own parts put in (`Blind.overlay_machine`).
-/

import Chip8.Proofs.Lockstep

namespace Chip8

/-- The instruction draws a random number. -/
def Instr.draws : Instr → Bool
  | .random _ _ => true
  | _ => false

/-- The instruction that draws is the one for a random number. -/
theorem Instr.exists_random_of_draws {i : Instr} (h : i.draws = true) :
    ∃ x mask, i = .random x mask := by
  cases i with
  | random x mask => exact ⟨x, mask, rfl⟩
  | _ => cases h

/-- Every instruction but the one for a random number draws nothing. -/
theorem Instr.draws_eq_false_iff {i : Instr} :
    i.draws = false ↔ ∀ x mask, i ≠ .random x mask := by
  constructor
  · rintro h x mask rfl
    cases h
  · intro h
    refine Bool.eq_false_iff.2 fun hd => ?_
    rcases Instr.exists_random_of_draws hd with ⟨x, mask, rfl⟩
    exact h x mask rfl

/-- What a call that runs no cycle makes of the tracing flag. -/
def HostCall.tracingAfter : HostCall → Bool → Bool
  | .toggleTracing, tracing => !tracing
  | .changeFlags change, tracing => change.tracing.getD tracing
  | .setFlags flags, _ => flags.tracing
  | _, tracing => tracing

/-- The same outcome with its machine changed. -/
def Outcome.onMachine {α : Type} (o : Outcome α) (f : Machine → Machine) : Outcome α :=
  { o with machine := f o.machine }

/-- Noting a press has nothing to do with tracing. -/
theorem Flags.notePress_withTracing (f : Flags) (tracing : Bool) (key : Nat) :
    { f with tracing := tracing }.notePress key = { f.notePress key with tracing := tracing } := by
  rcases f with ⟨_, _, awaiting, _⟩
  cases awaiting with
  | none => rfl
  | some register => rfl

namespace Machine

/-- The machine with another tracing flag. -/
def setTracing (m : Machine) (tracing : Bool) : Machine :=
  { m with flags := { m.flags with tracing := tracing } }

/-- The machine with another random generator. -/
def withRandom (m : Machine) (random : Random) : Machine := { m with random := random }

/-- The machine with another tracing flag and another random generator. -/
def overlay (m : Machine) (tracing : Bool) (random : Random) : Machine :=
  (m.setTracing tracing).withRandom random

section Overlay

variable (m : Machine) (tracing : Bool) (random : Random)

/-- Another tracing flag and generator keep the program counter. -/
@[simp]
theorem pc_overlay : (m.overlay tracing random).pc = m.pc := rfl

/-- Another tracing flag and generator keep the stack. -/
@[simp]
theorem returns_overlay : (m.overlay tracing random).returns = m.returns := rfl

/-- Another tracing flag and generator keep the memory. -/
@[simp]
theorem memory_overlay : (m.overlay tracing random).memory = m.memory := rfl

/-- Another tracing flag and generator keep the keypad. -/
@[simp]
theorem keypad_overlay : (m.overlay tracing random).keypad = m.keypad := rfl

/-- Another tracing flag and generator keep the key that ended a wait. -/
@[simp]
theorem pressed_overlay : (m.overlay tracing random).flags.pressed = m.flags.pressed := rfl

/-- Every test comes out the same with another tracing flag and generator. -/
@[simp]
theorem holds_overlay (t : Test) : (m.overlay tracing random).holds t = m.holds t := by
  cases t <;> rfl

end Overlay

/-- On this machine `f` sees neither the tracing flag nor the random generator, but
for what `g` makes of the flag. -/
def Blind {α : Type} (m : Machine) (f : Machine → Outcome α) (g : Bool → Bool) : Prop :=
  ∀ tracing random,
    f (m.overlay tracing random) = (f m).onMachine (·.overlay (g tracing) random)

namespace Blind

variable {α : Type} {m : Machine} {f : Machine → Outcome α} {g : Bool → Bool}

/-- The two parts of the machine that is left are those of the machine before. -/
theorem overlay_machine (h : m.Blind f g) :
    (f m).machine.overlay (g m.flags.tracing) m.random = (f m).machine :=
  (congrArg Outcome.machine (h m.flags.tracing m.random)).symm

/-- What is made of the value of `f` does not let it see either. -/
theorem map {β : Type} (h : m.Blind f g) (k : α → β) : m.Blind (fun m => (f m).map k) g := by
  intro tracing random
  exact congrArg (Outcome.map k) (h tracing random)

/-- What does not see the generator leaves it alone. -/
theorem random_machine (h : m.Blind f g) : (f m).machine.random = m.random := by
  rw [← h.overlay_machine]
  rfl

/-- Another tracing flag makes no difference but the one that `g` tells.  The generator that
is put in is the one that is there. -/
theorem apply_setTracing (h : m.Blind f g) (tracing : Bool) :
    f (m.setTracing tracing) = (f m).onMachine (·.setTracing (g tracing)) := by
  have hkeep : (f m).machine.overlay (g tracing) m.random =
      (f m).machine.setTracing (g tracing) := by
    rw [← h.overlay_machine]
    rfl
  have hsees := h tracing m.random
  rw [Outcome.onMachine, hkeep] at hsees
  exact hsees

/-- Another generator makes no difference.  The flag that is put in is the one that is
there. -/
theorem apply_withRandom (h : m.Blind f g) (random : Random) :
    f (m.withRandom random) = (f m).onMachine (·.withRandom random) := by
  have hkeep : (f m).machine.overlay (g m.flags.tracing) random =
      (f m).machine.withRandom random := by
    rw [← h.overlay_machine]
    rfl
  have hsees := h m.flags.tracing random
  rw [Outcome.onMachine, hkeep] at hsees
  exact hsees

end Blind

/-! ## Instructions -/

section Execute

variable (m : Machine)

/-- **An instruction that draws nothing sees neither the tracing flag nor the random
generator.** -/
theorem blind_execute {i : Instr} (hi : i.draws = false) : m.Blind (·.execute i) id := by
  intro tracing random
  cases i with
  | random x mask => cases hi
  | ret =>
    simp only [execute, ret, returns_overlay]
    cases m.returns with
    | nil => rfl
    | cons a returns => rfl
  | jump target =>
    simp only [execute, jumpTo, pc_overlay]
    by_cases hself : target.toWord + 2 = m.pc
    · simp only [hself, if_true]
      rfl
    · simp only [hself, if_false]
      rfl
  | call target =>
    simp only [execute, callAt, returns_overlay]
    by_cases hroom : m.returns.length < stackDepth
    · simp only [hroom, if_true]
      rfl
    · simp only [hroom, if_false]
      rfl
  | skip t =>
    simp only [execute, skipIf, holds_overlay]
    cases m.holds t with
    | true => rfl
    | false => rfl
  | alu op x y => cases op <;> rfl
  | awaitKey x =>
    simp only [execute, awaitKey, pressed_overlay]
    cases m.flags.pressed with
    | some key => rfl
    | none => rfl
  | _ => rfl

/-- **No instruction sees the tracing flag.** -/
theorem execute_setTracing (i : Instr) (tracing : Bool) :
    (m.setTracing tracing).execute i = (m.execute i).onMachine (·.setTracing tracing) := by
  cases hi : i.draws with
  | false => exact (m.blind_execute hi).apply_setTracing tracing
  | true =>
    rcases Instr.exists_random_of_draws hi with ⟨x, mask, rfl⟩
    rfl

/-- **The random generator moves on by one word if the instruction draws,** and stays
where it is if not. -/
theorem random_execute (i : Instr) :
    (m.execute i).machine.random = m.random.skip (if i.draws then 1 else 0) := by
  cases hi : i.draws with
  | false => exact (m.blind_execute hi).random_machine
  | true =>
    rcases Instr.exists_random_of_draws hi with ⟨x, mask, rfl⟩
    rfl

end Execute

/-! ## Calls -/

section Apply

variable (m : Machine)

/-- Loading a program sees neither the tracing flag nor the generator. -/
theorem blind_load (program : List UInt8) : m.Blind (·.load program) id := by
  intro tracing random
  simp only [load, memory_overlay]
  cases m.memory.load .program program with
  | error f => rfl
  | ok memory => rfl

/-- Moving a key sees neither the tracing flag nor the generator. -/
theorem blind_setKey (key : Nat) (pressed : Bool) : m.Blind (·.setKey key pressed) id := by
  intro tracing random
  simp only [setKey, keypad_overlay]
  cases m.keypad.set key pressed with
  | error f => rfl
  | ok keypad =>
    cases pressed with
    | false => rfl
    | true =>
      have hpress : (m.overlay tracing random).flags.notePress key =
          { m.flags.notePress key with tracing := tracing } :=
        m.flags.notePress_withTracing tracing key
      simp only [if_true, hpress]
      rfl

/-- A reset keeps the tracing flag and the generator. -/
theorem reset_overlay (tracing : Bool) (random : Random) :
    (m.overlay tracing random).reset = m.reset.overlay tracing random := by
  rw [reset_eq, reset_eq]
  rfl

/-- **A call that runs no cycle sees neither the tracing flag nor the random
generator,** unless to set the flag. -/
theorem blind_apply {c : HostCall} (hc : c.runsNoCycle = true) :
    m.Blind c.apply c.tracingAfter := by
  intro tracing random
  cases c with
  | load program => exact (m.blind_load program).map (fun _ => Reply.done) tracing random
  | loadFile contents =>
    cases contents with
    | error e => rfl
    | ok program => exact (m.blind_load program).map (fun _ => Reply.done) tracing random
  | setKey key pressed => exact (m.blind_setKey key pressed).map Reply.changed tracing random
  | reset => exact congrArg (Outcome.mk _ · _) (m.reset_overlay tracing random)
  | tick | singlestep | multistep n | frame n => cases hc
  | _ => rfl

end Apply

end Machine
end Chip8
