/-
# Calls that execute nothing

What a host can do to a machine between cycles: load a program, press and
release keys, let the timers tick, reset.  Every call yields an outcome: its
result, the machine after it and the records it adds to the log.  A call that
is refused leaves the machine as it was.
-/

import Chip8.Machine.Outcome

namespace Chip8
namespace Machine

/-- Loads a program into its region, if it fits, and lets the machine run. -/
def load (m : Machine) (program : List UInt8) : Outcome Unit :=
  match m.memory.load .program program with
  | .error f => ⟨.error f, m, []⟩
  | .ok memory =>
    ⟨.ok (), { m with memory := memory, flags := { m.flags with paused := false } },
      [.loaded program.length Memory.Region.program.start]⟩

/-- Loads the contents of a file, if it could be read. -/
def loadFile (m : Machine) (contents : Except FileError (List UInt8)) : Outcome Unit :=
  match contents with
  | .error e => ⟨.error (.unreadable e), m, []⟩
  | .ok program => m.load program

/-- Presses or releases a key and tells whether this changed the key.  A press
ends a wait, even if the key was already held. -/
def setKey (m : Machine) (key : Nat) (pressed : Bool) : Outcome Bool :=
  match m.keypad.set key pressed with
  | .error f => ⟨.error f, m, []⟩
  | .ok (keypad, changed) =>
    ⟨.ok changed,
      { m with keypad := keypad, flags := if pressed then m.flags.notePress key else m.flags },
      [.keyMoved key pressed]⟩

/-- Releases every key. -/
def releaseAll (m : Machine) : Machine := { m with keypad := .released }

/-- Resets the machine in place, part by part.  The tracing flag and the random
generator are not touched. -/
def reset (m : Machine) : Machine :=
  { m with
    flags := { m.flags with paused := false, awaiting := none, pressed := none }
    memory := m.memory.reset
    screen := .blank
    returns := []
    pc := UInt16.ofNat Memory.Region.program.start
    index := 0
    registers := .replicate 16 0
    timers := .zero
    keypad := .released
    cycle := 0 }

/-- The timers tick. -/
def tickTimers (m : Machine) : Machine := { m with timers := m.timers.tick }

/-- What a tick of the timers adds to the log. -/
def timersRecord (m : Machine) : Record := .timers m.timers.delay m.timers.sound

/-- **The parts that a reset clears are all but two:** it makes the machine a fresh
one with its tracing flag and its random generator. -/
theorem reset_eq (m : Machine) :
    m.reset = { fresh m.random with flags := { Flags.clear with tracing := m.flags.tracing } } := by
  rw [reset, Memory.reset_eq]
  rfl

/-- A program that fits is placed at the start of its region, and the pause is lifted. -/
theorem load_eq_ok (m : Machine) {program : List UInt8} (h : program.length ≤ 3584) :
    m.load program =
      ⟨.ok (), { m with
          memory := m.memory.place 0x200 program
          flags := { m.flags with paused := false } },
        [.loaded program.length 0x200]⟩ := by
  have hc : program.length ≤ Memory.Region.program.capacity := h
  simp only [load, Memory.load, hc, if_true]
  rfl

/-- A program that is too long is refused, and the machine stays as it is. -/
theorem load_eq_error (m : Machine) {program : List UInt8} (h : 3584 < program.length) :
    m.load program = ⟨.error (.programTooLarge program.length 3584), m, []⟩ := by
  have hc : ¬program.length ≤ Memory.Region.program.capacity := Nat.not_le.2 h
  simp only [load, Memory.load, hc, if_false]
  rfl

/-- Loading a program, or failing to, changes memory and flags and nothing else. -/
theorem machine_load_eq (m : Machine) (program : List UInt8) :
    (m.load program).machine = { m with
      memory := (m.load program).machine.memory
      flags := (m.load program).machine.flags } := by
  unfold load
  split <;> rfl

/-- Setting a key, or failing to, changes the keypad and flags and nothing else. -/
theorem machine_setKey_eq (m : Machine) (key : Nat) (pressed : Bool) :
    (m.setKey key pressed).machine = { m with
      keypad := (m.setKey key pressed).machine.keypad
      flags := (m.setKey key pressed).machine.flags } := by
  unfold setKey
  split <;> rfl

/-- A key that is not on the keypad is refused, and the machine stays as it is. -/
theorem setKey_eq_error (m : Machine) {key : Nat} (pressed : Bool) (h : 16 ≤ key) :
    m.setKey key pressed = ⟨.error (.invalidKey key), m, []⟩ := by
  have hk : ¬key < 16 := Nat.not_lt.2 h
  simp only [setKey, Keypad.set, hk, dite_false]

end Machine
end Chip8
