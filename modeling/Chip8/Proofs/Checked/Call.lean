/-
# Nothing is refused

The calls of a host with every access, sum, product, difference and shift on the way
checked.  One of these sums has no bound of its own: the count of cycles is a number of
64 bits and goes up by one with each instruction, so at its greatest value the next
instruction is refused (`checkedTick_of_full`).

A call is refused nothing if the count has room for one more at every moment of it
(`HasRoom`), and comes to what it should (`checkedApply_eq`).  Nothing is asked of the
machine: its flags may name registers and keys that do not exist, its memory may hold
anything, its index register and program counter may point anywhere.  Whole sessions
follow, and with them the operations that only look at memory or at the screen, and
those on a memory or a screen of one's own (`nothing_refused`).
-/

import Chip8.Proofs.Checked.Execute
import Chip8.Proofs.Timeline

namespace Chip8

namespace Memory

/-- No operation on the memory is refused anything, and each comes to what it should. -/
structure RefusesNothing (m : Memory) : Prop where
  read : ∀ a, m.checkedRead a = .ok (m.read a)
  write : ∀ a b, m.checkedWrite a b = .ok (m.write a b)
  fetch : ∀ a, m.checkedFetch a = .ok (m.fetch a)
  region : ∀ r, m.checkedRegion r = .ok (m.region r)
  load : ∀ r data, m.checkedLoad r data = .ok (m.load r data)
  clear : ∀ r, m.checkedClear r = .ok (m.clear r)
  reset : m.checkedReset = .ok m.reset
  window : ∀ start stop, m.checkedWindow start stop = .ok (m.window start stop)

/-- No call of a memory is refused, for any arguments. -/
theorem refusesNothing (m : Memory) : m.RefusesNothing :=
  ⟨m.checkedRead_eq, m.checkedWrite_eq, m.checkedFetch_eq, m.checkedRegion_eq, m.checkedLoad_eq,
    m.checkedClear_eq, m.checkedReset_eq, m.checkedWindow_eq⟩

end Memory

namespace Screen

/-- No operation on the screen is refused anything, and each comes to what it should. -/
structure RefusesNothing (s : Screen) : Prop where
  get : ∀ x y, s.checkedGet x y = .ok (s.get x y)
  draw : ∀ x y sprite, sprite.length < 0x8000000000000000 →
    s.checkedDraw x y sprite = .ok (s.draw x y sprite)
  pixels : s.checkedPixels = .ok s.pixels
  countLit : s.checkedCountLit = .ok s.countLit
  text : s.checkedText = .ok s.text

/-- No call of a screen is refused, for any arguments. -/
theorem refusesNothing (s : Screen) : s.RefusesNothing :=
  ⟨s.checkedGet_eq, fun x y _ => s.checkedDraw_eq x y, s.checkedPixels_eq, s.checkedCountLit_eq,
    s.checkedText_eq⟩

end Screen

namespace Machine

/-- A fresh machine with a random generator. -/
def checkedFresh (random : Random) : Checked Machine :=
  return { fresh random with memory := ← Memory.checkedFresh }

/-- Loads a program into its region, if it fits, and lets the machine run. -/
def checkedLoad (m : Machine) (program : List UInt8) : Checked (Outcome Unit) := do
  match ← m.memory.checkedLoad .program program with
  | .error f => return ⟨.error f, m, []⟩
  | .ok memory =>
    return ⟨.ok (), { m with memory := memory, flags := { m.flags with paused := false } },
      [.loaded program.length Memory.Region.program.start]⟩

/-- Loads the contents of a file, if it could be read. -/
def checkedLoadFile (m : Machine) (contents : Except FileError (List UInt8)) :
    Checked (Outcome Unit) :=
  match contents with
  | .error e => return ⟨.error (.unreadable e), m, []⟩
  | .ok program => m.checkedLoad program

/-- Resets the machine. -/
def checkedReset (m : Machine) : Checked Machine :=
  return { m.reset with memory := ← m.memory.checkedReset }

/-- Executes an instruction and counts the cycle, or puts the program counter back. -/
def checkedPerform (m : Machine) (i : Instr) : Checked (Outcome Unit) := do
  let o ← m.advance.checkedExecute i
  match o.result with
  | .ok () =>
    let cycle ← Checked.add UInt64.size o.machine.cycle.toNat 1
    return { o with machine := { o.machine with cycle := UInt64.ofNat cycle } }
  | .error _ => return { o with machine := { o.machine with pc := m.pc } }

/-- Executes the instruction that a word encodes. -/
def checkedInterpret (m : Machine) (word : UInt16) : Checked (Outcome Unit) :=
  match Instr.decode word with
  | none => return .failed (.illegalInstruction m.pc word) m
  | some i => m.checkedPerform i

/-- One cycle. -/
def checkedStep (m : Machine) : Checked (Outcome Unit) := do
  match ← m.memory.checkedFetch m.pc with
  | none => return .failed (.pcOutOfBounds m.pc) m
  | some word => return (← m.checkedInterpret word).after (m.trace word)

/-- One cycle, unless the machine is paused. -/
def checkedTick (m : Machine) : Checked (Outcome Unit) := do
  if m.flags.paused then return .done m
  else
    let o ← m.checkedStep
    match o.result with
    | .ok () => return o
    | .error f => return { o with log := o.log ++ [.fault f] }

/-- One cycle with the pause lifted. -/
def checkedSinglestep (m : Machine) : Checked (Outcome Unit) := do
  let o ← (m.setPaused false).checkedTick
  return { o with machine := o.machine.setPaused (o.machine.flags.paused || m.flags.paused) }

/-- Runs `n` cycles after others with the given log, the latest record first. -/
def checkedRunFrom (log : List Record) (m : Machine) : Nat → Checked (Outcome Unit)
  | 0 => return ⟨.ok (), m, log⟩
  | n + 1 => do
    if m.flags.paused then return ⟨.ok (), m, log⟩
    else
      let o ← m.checkedTick
      match o.result with
      | .error f => return ⟨.error f, o.machine, o.log.reverse ++ log⟩
      | .ok () => checkedRunFrom (o.log.reverse ++ log) o.machine n

/-- Runs `n` cycles, up to the first that fails. -/
def checkedMultistep (m : Machine) (n : Nat) : Checked (Outcome Unit) := do
  let o ← m.checkedRunFrom [] n
  return { o with log := o.log.reverse }

/-- Runs the cycles of a frame, then the timers tick. -/
def checkedFrame (m : Machine) (n : Nat) : Checked (Outcome Unit) := do
  let o ← m.checkedMultistep n
  let m := o.machine.tickTimers
  return { o with machine := m, log := o.log ++ [m.timersRecord] }

end Machine

namespace HostCall

/-- Performs a call.  Keys are looked up by an access that may come out empty, timers stop
at zero, and flags are only set. -/
def checkedApply (m : Machine) : HostCall → Checked (Outcome Reply)
  | .load program => return (← m.checkedLoad program).map fun _ => .done
  | .loadFile contents => return (← m.checkedLoadFile contents).map fun _ => .done
  | .reset => return ⟨.ok .done, ← m.checkedReset, [.reset]⟩
  | .tick => return (← m.checkedTick).map fun _ => .done
  | .singlestep => return (← m.checkedSinglestep).map fun _ => .done
  | .multistep n => return (← m.checkedMultistep n).map fun _ => .done
  | .frame n => return (← m.checkedFrame n).map fun _ => .done
  | c => return c.apply m

/-- Performs calls one after the other. -/
def checkedRun (m : Machine) (calls : List HostCall) : Checked Machine :=
  calls.foldlM (fun m c => return (← c.checkedApply m).machine) m

/-- The count of cycles has room for one more at every moment of a call. -/
def HasRoom (m : Machine) (c : HostCall) : Prop :=
  ∀ k ≤ (c.moments m).length, (stateAt m (c.moments m) k).cycle.toNat + 1 < UInt64.size

instance (m : Machine) (c : HostCall) : Decidable (HasRoom m c) :=
  inferInstanceAs (Decidable (∀ k ≤ (c.moments m).length, _))

end HostCall

namespace Machine

section Ok

variable {m : Machine}

/-- Making a machine is refused nowhere. -/
theorem checkedFresh_eq (random : Random) : checkedFresh random = .ok (fresh random) := by
  rw [checkedFresh, Memory.checkedFresh_eq]
  rfl

/-- Loading a program is refused nowhere, also if the program is too long. -/
theorem checkedLoad_eq (program : List UInt8) : m.checkedLoad program = .ok (m.load program) := by
  rw [checkedLoad, Memory.checkedLoad_eq, Checked.ok_bind, load]
  cases m.memory.load .program program with
  | error f => rfl
  | ok memory => rfl

/-- Resetting a machine is refused nowhere. -/
theorem checkedReset_eq : m.checkedReset = .ok m.reset := by
  rw [checkedReset, Memory.checkedReset_eq]
  rfl

/-- Counting a cycle is refused only at the end of all numbers. -/
theorem checkedPerform_eq (h : m.cycle.toNat + 1 < UInt64.size) (i : Instr) :
    m.checkedPerform i = .ok (m.perform i) := by
  have hcycle : (m.advance.execute i).machine.cycle = m.cycle := m.advance.cycle_execute i
  have hcount : Checked.add UInt64.size m.cycle.toNat 1 = .ok (m.cycle.toNat + 1) :=
    Checked.add_of_lt h
  have hnext : UInt64.ofNat (m.cycle.toNat + 1) = m.cycle + 1 := by
    rw [UInt64.ofNat_add, UInt64.ofNat_toNat]
    rfl
  rw [checkedPerform, checkedExecute_eq, Checked.ok_bind, perform]
  cases hr : (m.advance.execute i).result with
  | error f => rfl
  | ok u =>
    simp only [hcycle, hcount, Checked.ok_bind, hnext]
    rfl

/-- A cycle is refused nowhere as long as there is room to count it. -/
theorem checkedStep_eq (h : m.cycle.toNat + 1 < UInt64.size) : m.checkedStep = .ok m.step := by
  rw [checkedStep, Memory.checkedFetch_eq, Checked.ok_bind, step, word?]
  cases m.memory.fetch m.pc with
  | none => rfl
  | some word =>
    have hword : m.checkedInterpret word = .ok (m.interpret word) := by
      rw [checkedInterpret, interpret]
      cases Instr.decode word with
      | none => rfl
      | some i => exact checkedPerform_eq h i
    simp only [hword, Checked.ok_bind]
    rfl

/-- A tick is refused nowhere as long as there is room to count its cycle. -/
theorem checkedTick_eq (h : m.cycle.toNat + 1 < UInt64.size) : m.checkedTick = .ok m.tick := by
  rw [checkedTick, checkedStep_eq h, tick]
  cases m.flags.paused with
  | true => rfl
  | false =>
    simp only [Bool.false_eq_true, if_false, Checked.ok_bind]
    cases m.step.result with
    | ok u => rfl
    | error f => rfl

/-- The count of cycles is what a machine can be refused: at its greatest value it does
not go up any more, and an instruction that would be executed is not. -/
theorem checkedTick_of_full {i : Instr} (h : m.Executes i)
    (hfull : UInt64.size ≤ m.cycle.toNat + 1) :
    m.checkedTick = .error (.overflow UInt64.size) := by
  have hcycle : (m.advance.execute i).machine.cycle = m.cycle := m.advance.cycle_execute i
  have hok : (m.advance.execute i).result = .ok () := by
    have hsuccess : m.step.result = .ok () := (tick_of_running h.running).1.symm.trans h.success
    obtain ⟨f, hf, -⟩ | ⟨j, hj, hx, -⟩ := m.step_cases
    · rw [hf] at hsuccess
      cases hsuccess
    · obtain rfl := Option.some.inj (hj.symm.trans h.instr)
      exact hx
  have hcount : Checked.add UInt64.size m.cycle.toNat 1 = .error (.overflow UInt64.size) :=
    if_neg (Nat.not_lt.2 hfull)
  have hperform : m.checkedPerform i = .error (.overflow UInt64.size) := by
    rw [checkedPerform, checkedExecute_eq, Checked.ok_bind]
    simp only [hok, hcycle, hcount]
    rfl
  obtain ⟨word, hw, hd⟩ := Option.bind_eq_some_iff.1 h.instr
  have hword : m.checkedInterpret word = .error (.overflow UInt64.size) := by
    rw [checkedInterpret, hd]
    exact hperform
  have hstep : m.checkedStep = .error (.overflow UInt64.size) := by
    rw [checkedStep, Memory.checkedFetch_eq, Checked.ok_bind, show m.memory.fetch m.pc = _ from hw]
    simp only [hword]
    rfl
  rw [checkedTick, hstep, h.running]
  rfl

/-- A single step is refused nowhere as long as there is room to count its cycle. -/
theorem checkedSinglestep_eq (h : m.cycle.toNat + 1 < UInt64.size) :
    m.checkedSinglestep = .ok m.singlestep := by
  have htick : (m.setPaused false).checkedTick = .ok (m.setPaused false).tick := checkedTick_eq h
  rw [checkedSinglestep, htick]
  rfl

/-- **A run is refused nothing** as long as each of its ticks has room to count.  The
moments of the rest of a run are those of the run but for the first. -/
theorem checkedRunFrom_eq {n : Nat} (log : List Record)
    (h : ∀ k ≤ (m.ticks n).length,
      (HostCall.stateAt m (m.ticks n) k).cycle.toNat + 1 < UInt64.size) :
    m.checkedRunFrom log n = .ok (m.runFrom log n) := by
  induction n generalizing m log with
  | zero => rfl
  | succ n ih =>
    have htick : m.checkedTick = .ok m.tick := checkedTick_eq (h 0 (Nat.zero_le _))
    rw [checkedRunFrom, runFrom, htick]
    cases m.flags.paused with
    | true => rfl
    | false =>
      simp only [Bool.false_eq_true, if_false, Checked.ok_bind]
      cases hr : m.tick.result with
      | error f => rfl
      | ok u =>
        rw [ticks, hr] at h
        exact ih _ fun k hk => h (k + 1) (Nat.succ_le_succ hk)

/-- Running cycles is refused nowhere as long as there is room to count each of them. -/
theorem checkedMultistep_eq {n : Nat}
    (h : ∀ k ≤ (m.ticks n).length,
      (HostCall.stateAt m (m.ticks n) k).cycle.toNat + 1 < UInt64.size) :
    m.checkedMultistep n = .ok (m.multistep n) := by
  rw [checkedMultistep, checkedRunFrom_eq [] h]
  rfl

end Ok

end Machine

namespace HostCall

variable {m : Machine}

/-- **A call is refused nothing** if the count of cycles has room.  A frame has one moment
more than its cycles, the tick of the timers. -/
theorem checkedApply_eq {c : HostCall} (h : c.HasRoom m) : c.checkedApply m = .ok (c.apply m) := by
  have hnow : m.cycle.toNat + 1 < UInt64.size := h 0 (Nat.zero_le _)
  cases c with
  | load program => rw [checkedApply, Machine.checkedLoad_eq]; rfl
  | loadFile contents =>
    cases contents with
    | error e => rfl
    | ok program =>
      rw [checkedApply, Machine.checkedLoadFile, Machine.checkedLoad_eq]
      rfl
  | reset => rw [checkedApply, Machine.checkedReset_eq]; rfl
  | tick => rw [checkedApply, Machine.checkedTick_eq hnow]; rfl
  | singlestep => rw [checkedApply, Machine.checkedSinglestep_eq hnow]; rfl
  | multistep n => rw [checkedApply, Machine.checkedMultistep_eq h]; rfl
  | frame n =>
    have hticks : ∀ k ≤ (m.ticks n).length,
        (stateAt m (m.ticks n) k).cycle.toNat + 1 < UInt64.size := by
      intro k hk
      have hmoment := h k (by rw [moments, List.length_append]; omega)
      rwa [stateAt, moments, List.take_append_of_le_length hk] at hmoment
    rw [checkedApply, Machine.checkedFrame, Machine.checkedMultistep_eq hticks]
    rfl
  | _ => rfl

/-- **A session is refused nothing** if each of its calls has room. -/
theorem checkedRun_eq {calls : List HostCall}
    (h : ∀ k (hk : k < calls.length), calls[k].HasRoom (stateAt m calls k)) :
    checkedRun m calls = .ok (run m calls) := by
  induction calls generalizing m with
  | nil => rfl
  | cons c calls ih =>
    have hfirst : c.checkedApply m = .ok (c.apply m) := checkedApply_eq (h 0 (Nat.zero_lt_succ _))
    have hrest : checkedRun (c.apply m).machine calls = .ok (run (c.apply m).machine calls) :=
      ih fun k hk => h (k + 1) (Nat.succ_lt_succ hk)
    rw [checkedRun, List.foldlM_cons, hfirst]
    exact hrest

end HostCall

/-- **Nothing is refused.**  Every session from a fresh machine, with any programs, keys
and numbers of cycles and with any flags set on the way, goes through with all of its
accesses, sums, products, differences and shifts checked, as long as the count of cycles
has room; it leads to the machine that it should.  So does a further call from any
machine, with its result and its log.  And so do the operations on any memory, for any
address and any window, and on any screen, for any coordinates. -/
theorem nothing_refused :
    (∀ random (calls : List HostCall),
        (∀ k (hk : k < calls.length),
          calls[k].HasRoom (HostCall.stateAt (Machine.fresh random) calls k)) →
        (do HostCall.checkedRun (← Machine.checkedFresh random) calls) =
          .ok (HostCall.run (Machine.fresh random) calls)) ∧
      (∀ (m : Machine) (c : HostCall), c.HasRoom m → c.checkedApply m = .ok (c.apply m)) ∧
      (∀ memory : Memory, memory.RefusesNothing) ∧
      ∀ screen : Screen, screen.RefusesNothing := by
  refine ⟨fun random calls hroom => ?_, fun m c hroom => HostCall.checkedApply_eq hroom,
    Memory.refusesNothing, Screen.refusesNothing⟩
  rw [Machine.checkedFresh_eq, Checked.ok_bind]
  exact HostCall.checkedRun_eq hroom

/-- A program that draws a digit, stores registers, loads them, stores decimal digits and
waits for a key, with flags that name no register and no key. -/
def drawAndStore : List HostCall :=
  [.load [0x60, 0x09, 0xF0, 0x29, 0xD0, 0x05, 0xF3, 0x55, 0xF3, 0x65, 0xF0, 0x33, 0xF0, 0x0A],
    .setFlags ⟨false, false, some 0xFFFFFFFFFFFFFFFF, some 0xFFFFFFFFFFFFFFFF⟩,
    .frame 7, .setKey 0xFFFFFFFFFFFFFFFF true, .reset]

/-- The session is refused nothing, nor is one more call, a sprite with as many lines as
the screen, or a window that runs backwards beyond the end of memory. -/
theorem nothing_refused_drawAndStore :
    (do HostCall.checkedRun (← Machine.checkedFresh (.ofSeed 8)) drawAndStore) =
        .ok (HostCall.run (Machine.fresh (.ofSeed 8)) drawAndStore) ∧
      (HostCall.multistep 3).checkedApply (Machine.ofSeed 8) =
        .ok ((HostCall.multistep 3).apply (Machine.ofSeed 8)) ∧
      Screen.blank.checkedDraw 63 31 (List.replicate 32 0xFF) =
        .ok (Screen.blank.draw 63 31 (List.replicate 32 0xFF)) ∧
      Memory.fresh.checkedWindow 0xFFFFFFFFFFFFFFFF 0x2000 =
        .ok (Memory.fresh.window 0xFFFFFFFFFFFFFFFF 0x2000) := by
  obtain ⟨hsession, hcall, hmemory, hscreen⟩ := nothing_refused
  exact ⟨hsession (.ofSeed 8) drawAndStore (by decide +kernel),
    hcall (Machine.ofSeed 8) (.multistep 3) (by decide +kernel),
    (hscreen .blank).draw 63 31 _ (by decide), (hmemory .fresh).window _ _⟩

end Chip8
