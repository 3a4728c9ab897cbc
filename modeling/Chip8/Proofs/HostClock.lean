/-
# The timers count the host's time

A timer goes down by one with every tick of the host's clock and stops at zero.  Programs
run at a pace of their own, so no cycle may move a timer: the only instruction that touches
one is the instruction that sets it.

| call | ticks of the clock |
| --- | --- |
| `tickTimers` | one |
| `frame n` | one, whether its cycles succeed, fail or find the machine paused |
| any other, cycles or not | none |

The two timers are alike, up to the instruction that sets them (`Timer`, `Instr.sets`).
What is left on a timer is followed through a cycle, a run of cycles, a call and a session
(`left_run`); without a reset and without the instruction that sets it, a session of `k`
ticks takes `k` off it, so that the buzzer goes on sounding exactly as long as the sound
timer lasts (`timers_count_host_time`).
-/

import Chip8.Proofs.Timeline

namespace Chip8

/-- One of the two timers. -/
inductive Timer where
  | delay
  | sound
  deriving DecidableEq, Repr

/-- What is left on a timer. -/
def Timers.left (t : Timers) : Timer → Nat
  | .delay => t.delay.toNat
  | .sound => t.sound.toNat

/-- The instruction sets the timer. -/
def Instr.sets : Instr → Timer → Bool
  | .setDelay _, .delay => true
  | .setSound _, .sound => true
  | _, _ => false

/-- The call lets the timers tick. -/
def HostCall.ticksTimers : HostCall → Bool
  | .tickTimers | .frame _ => true
  | _ => false

/-- **A tick takes one off a timer,** down to zero. -/
theorem Timers.left_tick (t : Timers) (k : Timer) : t.tick.left k = t.left k - 1 := by
  cases k with
  | delay => exact toNat_countDown t.delay
  | sound => exact toNat_countDown t.sound

namespace Machine

variable {m : Machine} {k : Timer}

/-- The part of the machine that a timer is. -/
def Part.ofTimer : Timer → Part
  | .delay => .delay
  | .sound => .sound

/-- A timer that is the same has the same left on it. -/
theorem left_of_same {s t : Machine} (h : (Part.ofTimer k).Same s t) :
    t.timers.left k = s.timers.left k := by
  cases k <;> exact congrArg UInt8.toNat h

/-- **An instruction that does not set a timer does not write it.** -/
theorem ofTimer_notMem_writes {i : Instr} (h : i.sets k = false) :
    Part.ofTimer k ∉ m.writes i := by
  cases k
  all_goals
    cases i with
    | setDelay x | setSound x => simp_all [writes, Part.ofTimer, Instr.sets]
    | jump target => rw [writes]; split <;> simp [Part.ofTimer]
    | alu op x y => cases op <;> simp [writes, Part.ofTimer]
    | awaitKey x => rw [writes]; split <;> simp [Part.ofTimer]
    | _ => simp [writes, Part.ofTimer, cellAt]

/-- A cycle leaves a timer alone, unless it executes the instruction that sets it. -/
theorem left_tick (h : ∀ i ∈ m.executed?.toList, i.sets k = false) :
    m.tick.machine.timers.left k = m.timers.left k := by
  cases hx : m.executed? with
  | some i =>
    have hi : m.Executes i := executed?_eq_some_iff.1 hx
    have hsets : i.sets k = false := h i (by rw [hx]; exact List.mem_singleton_self i)
    exact left_of_same (hi.same_tick (ofTimer_notMem_writes hsets))
  | none => rw [machine_tick_of_executed?_eq_none hx]

/-- **A run of cycles leaves a timer alone,** wherever it stops. -/
theorem left_multistep {n : Nat}
    (h : ∀ i ∈ HostCall.executed m (m.ticks n), i.sets k = false) :
    (m.multistep n).machine.timers.left k = m.timers.left k := by
  induction n generalizing m with
  | zero => rfl
  | succ n ih =>
    rw [HostCall.executed_ticks_succ] at h
    obtain ⟨hfirst, hrest⟩ := List.forall_mem_append.1 h
    have htick : m.tick.machine.timers.left k = m.timers.left k := left_tick hfirst
    rw [multistep_succ]
    cases hr : m.tick.result with
    | error f => exact htick
    | ok u =>
      rw [hr] at hrest
      exact (ih hrest).trans htick

/-- Loading a program leaves the timers alone. -/
theorem timers_load (m : Machine) (program : List UInt8) :
    (m.load program).machine.timers = m.timers := by
  rw [machine_load_eq]

/-- Moving a key leaves the timers alone. -/
theorem timers_setKey (m : Machine) (key : Nat) (pressed : Bool) :
    (m.setKey key pressed).machine.timers = m.timers := by
  rw [machine_setKey_eq]

/-- **A call takes off a timer what it lets tick,** if it neither resets the machine nor
executes the instruction that sets the timer. -/
theorem left_apply {c : HostCall} (hreset : c ≠ .reset)
    (h : ∀ i ∈ HostCall.executed m (c.moments m), i.sets k = false) :
    (c.apply m).machine.timers.left k =
      m.timers.left k - if c.ticksTimers then 1 else 0 := by
  cases c with
  | load program => exact congrArg (Timers.left · k) (m.timers_load program)
  | loadFile contents =>
    cases contents with
    | error e => rfl
    | ok program => exact congrArg (Timers.left · k) (m.timers_load program)
  | setKey key pressed => exact congrArg (Timers.left · k) (m.timers_setKey key pressed)
  | reset => exact absurd rfl hreset
  | tickTimers => exact m.timers.left_tick k
  | tick => exact left_tick fun i hi => h i (List.mem_append_left _ hi)
  | singlestep =>
    rw [HostCall.executed_moments_singlestep] at h
    exact left_tick (m := m.setPaused false) h
  | multistep n => exact left_multistep h
  | frame n =>
    rw [HostCall.executed_moments_frame] at h
    show (m.multistep n).machine.timers.tick.left k = m.timers.left k - 1
    rw [Timers.left_tick, left_multistep h]
  | _ => rfl

/-- **A session takes off a timer one for each of its ticks.** -/
theorem left_run {calls : List HostCall} (hreset : .reset ∉ calls)
    (h : ∀ i ∈ HostCall.executed m (HostCall.timeline m calls), i.sets k = false) :
    (HostCall.run m calls).timers.left k =
      m.timers.left k - calls.countP HostCall.ticksTimers := by
  induction calls generalizing m with
  | nil => rfl
  | cons c calls ih =>
    rw [HostCall.executed_timeline_cons] at h
    obtain ⟨hnow, hlater⟩ := List.forall_mem_append.1 h
    have hc : c ≠ .reset := (List.ne_of_not_mem_cons hreset).symm
    have hfirst := left_apply hc hnow
    have hrest := ih (List.not_mem_of_not_mem_cons hreset) hlater
    show (HostCall.run (c.apply m).machine calls).timers.left k = _
    rw [List.countP_cons]
    omega

/-- **The timers count the host's time and nothing else.**  Take any session without a
reset, and count its ticks of the timers and its frames, whatever came of them.  If no
instruction that is executed sets the delay timer, it goes down by that number, but not
below zero.  So does the sound timer, if no instruction that is executed sets this one, and
the buzzer sounds at the end exactly if the number is less than what was left. -/
theorem timers_count_host_time (m : Machine) {calls : List HostCall}
    (hreset : .reset ∉ calls) :
    let executed := HostCall.executed m (HostCall.timeline m calls)
    let ticks := calls.countP HostCall.ticksTimers
    let t := (HostCall.run m calls).timers
    ((∀ x, .setDelay x ∉ executed) → t.delay.toNat = m.timers.delay.toNat - ticks) ∧
      ((∀ x, .setSound x ∉ executed) →
        t.sound.toNat = m.timers.sound.toNat - ticks ∧
          (t.beeping = true ↔ ticks < m.timers.sound.toNat)) := by
  intro executed ticks t
  constructor
  · intro h
    refine left_run (k := .delay) hreset fun i hi => ?_
    cases i with
    | setDelay x => exact absurd hi (h x)
    | _ => rfl
  · intro h
    have hleft : t.sound.toNat = m.timers.sound.toNat - ticks := by
      refine left_run (k := .sound) hreset fun i hi => ?_
      cases i with
      | setSound x => exact absurd hi (h x)
      | _ => rfl
    refine ⟨hleft, ?_⟩
    rw [Timers.beeping_iff, hleft]
    omega

/-- A machine with both timers running, and a program that reads the delay timer, draws,
and ends in a word that is no instruction. -/
def timing : Machine :=
  { HostCall.run (ofSeed 8) [.load [0xF1, 0x07, 0xD1, 0x15, 0xFF, 0xFF]] with timers := ⟨9, 3⟩ }

/-- A tick, a frame that fails, a frame of the paused machine and a tick of the timers are
three ticks: the buzzer has just stopped. -/
theorem timers_count_host_time_timing :
    let calls : List HostCall := [.tick, .frame 5, .togglePaused, .frame 5, .tickTimers]
    let executed := HostCall.executed timing (HostCall.timeline timing calls)
    .reset ∉ calls ∧ (∀ x, .setDelay x ∉ executed) ∧ (∀ x, .setSound x ∉ executed) ∧
      (HostCall.run timing calls).timers.delay.toNat = 9 - 3 ∧
      (HostCall.run timing calls).timers.sound.toNat = 3 - 3 ∧
      ((HostCall.run timing calls).timers.beeping = true ↔ 3 < 3) := by
  intro calls executed
  have hreset : .reset ∉ calls := by simp [calls]
  have hexecuted : executed = [.readDelay 1, .draw 1 1 5] := by decide +kernel
  have hdelay : ∀ x, .setDelay x ∉ executed := by simp [hexecuted]
  have hsound : ∀ x, .setSound x ∉ executed := by simp [hexecuted]
  obtain ⟨hd, hs⟩ := timing.timers_count_host_time hreset
  exact ⟨hreset, hdelay, hsound, hd hdelay, hs hsound⟩

end Machine
end Chip8
