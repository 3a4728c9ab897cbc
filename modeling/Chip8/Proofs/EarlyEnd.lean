/-
# Stopping at a halt loses nothing

A player stops as soon as a frame leaves the machine paused.  Played on, the machine
would get the presses of the frames that are left, and a press could end a wait for
a key.  It ends none: what pauses a machine in play is a jump to itself, and a
machine that waits for a key stands at another instruction.

| frame of a machine | leaves |
| --- | --- |
| in play (`InPlay`) | a machine in play, with every key released |
| that has halted (`Halted`) | the machine as it was, with its timers one tick further |

So to play on after a halt is to let the timers tick (`playThroughFrom_of_halted`).
-/

import Chip8.Proofs.KeyScript
import Chip8.Proofs.WaitPlace
import Mathlib.Logic.Function.Iterate

namespace Chip8

/-- The ending with the timers `n` ticks further. -/
def Ending.afterTicks (e : Ending) (n : Nat) : Ending :=
  ⟨e.result, { e.machine with timers := Timers.tick^[n] e.machine.timers }⟩

namespace Machine

/-! ## A machine in play -/

/-- A machine in play: its wait for a key is in place, and if it is paused, it waits
for no key. -/
structure InPlay (m : Machine) : Prop where
  wait : m.WaitInPlace
  idle : m.flags.paused = true → m.flags.Idle

section InPlay

variable {m : Machine} {c : HostCall}

/-- Whatever program is loaded, or fails to be, a fresh machine is in play. -/
theorem inPlay_load_fresh (random : Random) (tracing : Bool) (program : List UInt8) :
    ({ fresh random with flags := { Flags.clear with tracing := tracing } }.load
      program).machine.InPlay := by
  obtain ⟨memory, paused, hm⟩ := HostCall.machine_apply_of_isLoad
    { fresh random with flags := { Flags.clear with tracing := tracing } }
    (c := .load program) rfl
  have hidle : ({ fresh random with flags := { Flags.clear with tracing := tracing } }.load
      program).machine.flags.Idle :=
    ⟨congrArg (fun m => m.flags.awaiting) hm, congrArg (fun m => m.flags.pressed) hm⟩
  exact ⟨.inl hidle, fun _ => hidle⟩

/-- A call that executes nothing and pauses nothing leaves a machine in play. -/
theorem InPlay.of_passes (h : m.InPlay) (hp : m.Passes c) (hload : c.isLoad = false)
    (hpaused : (c.apply m).machine.flags.paused = m.flags.paused) :
    (c.apply m).machine.InPlay where
  wait := h.wait.of_passes hp fun hl => by
    rw [hload] at hl
    cases hl
  idle := fun ht => hp.idle (h.idle (hpaused ▸ ht))

/-- Moving a key leaves the pause flag alone. -/
theorem paused_setKey (m : Machine) (key : Nat) (pressed : Bool) :
    (m.setKey key pressed).machine.flags.paused = m.flags.paused := by
  unfold setKey
  split
  · rfl
  · cases pressed with
    | false => rfl
    | true => exact m.flags.paused_notePress key

/-- A key that is moved leaves the machine in play. -/
theorem InPlay.setKey (h : m.InPlay) (key : Nat) (pressed : Bool) :
    (m.setKey key pressed).machine.InPlay :=
  h.of_passes (passes_of_not_executes (c := .setKey key pressed) rfl nofun) rfl
    (m.paused_setKey key pressed)

/-- Releasing every key leaves the machine in play. -/
theorem InPlay.releaseAll (h : m.InPlay) : m.releaseAll.InPlay :=
  h.of_passes (passes_of_not_executes (c := .releaseAll) rfl nofun) rfl rfl

/-- A tick of the timers leaves the machine in play. -/
theorem InPlay.tickTimers (h : m.InPlay) : m.tickTimers.InPlay :=
  h.of_passes (passes_of_not_executes (c := .tickTimers) rfl nofun) rfl rfl

/-- **A tick that pauses the machine finds it waiting for no key:** it executes a jump,
and not an instruction that waits. -/
theorem InPlay.tick (h : m.InPlay) : m.tick.machine.InPlay where
  wait := h.wait.moment (c := .tick) rfl rfl nofun
  idle := fun ht => by
    by_cases hx : ∃ i, m.Executes i
    · obtain ⟨i, hi⟩ := hx
      obtain ⟨target, rfl, -⟩ := hi.exists_jump_of_paused ht
      have hidle : m.flags.Idle := h.wait.idle hi.instr nofun
      exact (hi.passes nofun).idle hidle
    · have hsame : m.tick.machine = m :=
        machine_tick_of_not_executes fun i hi => hx ⟨i, hi⟩
      rw [hsame] at ht ⊢
      exact h.idle ht

/-- **Running cycles leaves the machine in play:** it pauses itself only when it waits for
no key. -/
theorem InPlay.multistep (h : m.InPlay) (n : Nat) : (m.multistep n).machine.InPlay := by
  induction n generalizing m with
  | zero => exact h
  | succ n ih =>
    rw [multistep_succ]
    split
    · exact h.tick
    · exact ih h.tick

/-- A frame leaves the machine in play. -/
theorem InPlay.frame (h : m.InPlay) (n : Nat) : (m.frame n).machine.InPlay :=
  (h.multistep n).tickTimers

/-- Pressing keys leaves the machine in play, also if one is refused. -/
theorem InPlay.pressAll (h : m.InPlay) (keys : List Nat) : (m.pressAll keys).machine.InPlay := by
  induction keys generalizing m with
  | nil => exact h
  | cons key keys ih =>
    simp only [Machine.pressAll]
    split
    · exact h.setKey key true
    · exact ih (h.setKey key true)

/-- A frame of a script that succeeds leaves the machine in play. -/
theorem InPlay.playFrame (h : m.InPlay) {keys : List Nat} {cycles : Nat}
    (hok : (m.playFrame keys cycles).result = .ok ()) :
    (m.playFrame keys cycles).machine.InPlay := by
  rw [machine_playFrame_of_ok hok]
  exact ((h.pressAll keys).frame cycles).releaseAll

end InPlay

/-! ## A machine that has halted -/

/-- A machine that has halted: it is paused, it waits for no key, and no key is held. -/
structure Halted (m : Machine) : Prop where
  paused : m.flags.paused = true
  idle : m.flags.Idle
  released : m.keypad = .released

section Halted

variable {m : Machine} {keys : List Nat}

/-- A frame that succeeds and leaves a machine in play paused has halted it. -/
theorem InPlay.halted_playFrame (h : m.InPlay) {cycles : Nat}
    (hok : (m.playFrame keys cycles).result = .ok ())
    (hpaused : (m.playFrame keys cycles).machine.flags.paused = true) :
    (m.playFrame keys cycles).machine.Halted where
  paused := hpaused
  idle := (h.playFrame hok).idle hpaused
  released := by
    rw [machine_playFrame_of_ok hok]
    rfl

/-- Presses that no wait takes move only the keys. -/
theorem pressAll_of_idle (h : m.flags.Idle) (hkeys : ∀ key ∈ keys, key < 16) :
    ∃ keypad, m.pressAll keys = ⟨.ok (), { m with keypad := keypad }⟩ := by
  refine ⟨m.keypad.hold keys, ?_⟩
  rw [m.pressAll_eq hkeys, withKeys, h.note]

/-- **A frame of a machine that has halted is a tick of its timers.** -/
theorem Halted.playFrame (h : m.Halted) (hkeys : ∀ key ∈ keys, key < 16) (cycles : Nat) :
    m.playFrame keys cycles = ⟨.ok (), m.tickTimers⟩ := by
  obtain ⟨keypad, hpress⟩ := pressAll_of_idle h.idle hkeys
  have hrun : { m with keypad := keypad }.multistep cycles =
      ⟨.ok (), { m with keypad := keypad }, []⟩ :=
    multistep_of_paused (m := { m with keypad := keypad }) h.paused cycles
  have hreleased : { m.tickTimers with keypad := .released } = m.tickTimers := by
    rw [← h.released]
    rfl
  simp only [Machine.playFrame, hpress, Machine.frame, hrun]
  exact congrArg (Ending.mk (.ok ())) hreleased

/-- A tick of the timers does not bring a machine back that has halted. -/
theorem Halted.tickTimers (h : m.Halted) : m.tickTimers.Halted := ⟨h.paused, h.idle, h.released⟩

/-- **To play on after a halt is to let the timers tick.** -/
theorem playThroughFrom_of_halted (h : m.Halted) {script : List KeyPress}
    (hkeys : ∀ p ∈ script, p.key ≤ 0xF) (cycles frame left : Nat) :
    m.playThroughFrom script cycles frame left =
      Ending.afterTicks ⟨.ok (), m⟩ left := by
  induction left generalizing m frame with
  | zero => rfl
  | succ left ih =>
    have hlt : ∀ key ∈ KeyPress.keysAt script frame, key < 16 := fun _ hkey =>
      KeyPress.lt_of_mem_keysAt hkeys hkey
    have hframe := h.playFrame hlt cycles
    simp only [playThroughFrom, hframe, ih h.tickTimers]
    rfl

end Halted

/-! ## Both ways to play -/

section Play

variable {m : Machine} {script : List KeyPress} {cycles frame left : Nat}

/-- Playing on ends as stopping does, but for as many ticks of the timers as frames
are left after a halt. -/
theorem InPlay.playThroughFrom (h : m.InPlay) (hkeys : ∀ p ∈ script, p.key ≤ 0xF)
    (cycles frame left : Nat) :
    ∃ n ≤ left,
      m.playThroughFrom script cycles frame left =
        (m.playFrom script cycles frame left).afterTicks n ∧
      (n = 0 ∨ (m.playFrom script cycles frame left).machine.flags.paused = true) := by
  induction left generalizing m frame with
  | zero => exact ⟨0, Nat.le_refl 0, rfl, .inl rfl⟩
  | succ left ih =>
    cases hr : (m.playFrame (KeyPress.keysAt script frame) cycles).result with
    | error f =>
      refine ⟨0, Nat.zero_le _, ?_, .inl rfl⟩
      rw [(playFrom_of_error hr).1, (playFrom_of_error hr).2]
      rfl
    | ok u =>
      rw [playThroughFrom_of_ok hr]
      cases hp : (m.playFrame (KeyPress.keysAt script frame) cycles).machine.flags.paused with
      | true =>
        have hhalt := h.halted_playFrame hr hp
        have hstop : Ending.mk (.ok ()) (m.playFrame (KeyPress.keysAt script frame) cycles).machine =
            m.playFrame (KeyPress.keysAt script frame) cycles :=
          congrArg (Ending.mk · _) hr.symm
        rw [playFrom_of_paused hr hp, playThroughFrom_of_halted hhalt hkeys, hstop]
        exact ⟨left, Nat.le_succ left, rfl, .inr hp⟩
      | false =>
        rw [playFrom_of_running hr hp]
        obtain ⟨n, hn, hrest⟩ := ih (h.playFrame hr) (frame + 1)
        exact ⟨n, Nat.le_succ_of_le hn, hrest⟩

/-- **Stopping at a halt loses nothing.**  From a fresh machine with any program, the
player that stops and the one that plays on end with the same result and, but for the
timers, with the same machine.  The timers are at most as many ticks further as there
are frames, and none if the machine has not halted. -/
theorem play_loses_nothing (random : Random) (tracing : Bool) (program : List UInt8)
    (script : List KeyPress) (hkeys : ∀ p ∈ script, p.key ≤ 0xF) (frames cycles : Nat) :
    let m := ({ fresh random with flags := { Flags.clear with tracing := tracing } }.load
      program).machine
    let early := m.play script frames cycles
    let full := m.playThrough script frames cycles
    full.result = early.result ∧
      ∃ n ≤ frames,
        full.machine = { early.machine with timers := Timers.tick^[n] early.machine.timers } ∧
        (n = 0 ∨ early.machine.flags.paused = true) := by
  intro m early full
  have hplay : m.InPlay := inPlay_load_fresh random tracing program
  obtain ⟨n, hn, hfull, hpaused⟩ := hplay.playThroughFrom hkeys cycles 0 frames
  have hfull : full = early.afterTicks n := hfull
  rw [hfull]
  exact ⟨rfl, n, hn, rfl, hpaused⟩

end Play

/-- Waits for a key in register 1, then halts; the key comes in the second frame, and
another one when the machine has halted. -/
theorem play_loses_nothing_waitAndHalt :
    let m := ({ fresh (.ofSeed 0) with flags := { Flags.clear with tracing := false } }.load
      [0xF1, 0x0A, 0x12, 0x02]).machine
    let script : List KeyPress := [⟨0xC, 1⟩, ⟨0x5, 3⟩]
    (∀ p ∈ script, p.key ≤ 0xF) ∧
      (m.play script 4 2).machine.flags.paused = true ∧
      (m.play script 4 2).machine.reg 1 = 0xC ∧
      (m.playThrough script 4 2).result = (m.play script 4 2).result ∧
      (m.playThrough script 4 2).machine.reg 1 = 0xC := by
  intro m script
  have hkeys : ∀ p ∈ script, p.key ≤ 0xF := by decide
  have hend : (m.play script 4 2).machine.flags.paused = true ∧
      (m.play script 4 2).machine.reg 1 = 0xC := by decide +kernel
  obtain ⟨hresult, n, -, hmachine, -⟩ :=
    play_loses_nothing (.ofSeed 0) false [0xF1, 0x0A, 0x12, 0x02] script hkeys 4 2
  refine ⟨hkeys, hend.1, hend.2, hresult, ?_⟩
  rw [hmachine]
  exact hend.2

end Machine
end Chip8
