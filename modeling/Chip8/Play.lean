/-
# Playing a script

A machine is played for a number of frames with a script of key presses.  At the
beginning of a frame the keys scripted for it are pressed, in the order of the
script; then the frame runs, and at its end every key is released.  A press that
is refused or a frame that fails ends the run at once, and so does a frame that
leaves the machine paused, because a paused machine stays so
(`playThrough` goes on regardless).
-/

import Chip8.KeyPress
import Chip8.Machine.Cycle

namespace Chip8

/-- The keys that a script presses in a frame, in order. -/
def KeyPress.keysAt (script : List KeyPress) (frame : Nat) : List Nat :=
  (script.filter fun p => p.frame == frame).map KeyPress.key

/-- Where a run has got to. -/
structure Ending where
  result : Except Fault Unit
  machine : Machine

namespace Machine

/-- Presses keys one after the other, up to the first that is refused. -/
def pressAll (m : Machine) : List Nat → Ending
  | [] => ⟨.ok (), m⟩
  | key :: keys =>
    let o := m.setKey key true
    match o.result with
    | .error f => ⟨.error f, o.machine⟩
    | .ok _ => o.machine.pressAll keys

/-- Plays one frame: presses keys, runs the frame and releases every key. -/
def playFrame (m : Machine) (keys : List Nat) (cycles : Nat) : Ending :=
  let p := m.pressAll keys
  match p.result with
  | .error f => ⟨.error f, p.machine⟩
  | .ok () =>
    let o := p.machine.frame cycles
    match o.result with
    | .error f => ⟨.error f, o.machine⟩
    | .ok () => ⟨.ok (), o.machine.releaseAll⟩

/-- Plays `left` frames from frame number `frame` on, up to one that fails or
leaves the machine paused. -/
def playFrom (script : List KeyPress) (cycles frame : Nat) (m : Machine) : Nat → Ending
  | 0 => ⟨.ok (), m⟩
  | left + 1 =>
    let e := m.playFrame (KeyPress.keysAt script frame) cycles
    match e.result with
    | .error _ => e
    | .ok () =>
      if e.machine.flags.paused then e else playFrom script cycles (frame + 1) e.machine left

/-- Plays a script for a number of frames, each of the given number of cycles. -/
def play (m : Machine) (script : List KeyPress) (frames cycles : Nat) : Ending :=
  m.playFrom script cycles 0 frames

/-- Plays `left` frames from frame number `frame` on, up to one that fails. -/
def playThroughFrom (script : List KeyPress) (cycles frame : Nat) (m : Machine) : Nat → Ending
  | 0 => ⟨.ok (), m⟩
  | left + 1 =>
    let e := m.playFrame (KeyPress.keysAt script frame) cycles
    match e.result with
    | .error _ => e
    | .ok () => playThroughFrom script cycles (frame + 1) e.machine left

/-- Plays a script for a number of frames without an early end for a paused
machine. -/
def playThrough (m : Machine) (script : List KeyPress) (frames cycles : Nat) : Ending :=
  m.playThroughFrom script cycles 0 frames

section Play

variable {m : Machine} {script : List KeyPress} {cycles frame left : Nat}

/-- What a frame that succeeds makes of a machine. -/
theorem machine_playFrame_of_ok {keys : List Nat} {cycles : Nat}
    (hok : (m.playFrame keys cycles).result = .ok ()) :
    (m.playFrame keys cycles).machine =
      ((m.pressAll keys).machine.frame cycles).machine.releaseAll := by
  revert hok
  unfold playFrame
  dsimp only
  split
  · intro hok
    cases hok
  · split
    · intro hok
      cases hok
    · exact fun _ => rfl

/-- A run stops at a frame that fails, whether or not it stops at a halt. -/
theorem playFrom_of_error {f : Fault}
    (h : (m.playFrame (KeyPress.keysAt script frame) cycles).result = .error f) :
    m.playFrom script cycles frame (left + 1) = m.playFrame (KeyPress.keysAt script frame) cycles ∧
      m.playThroughFrom script cycles frame (left + 1) =
        m.playFrame (KeyPress.keysAt script frame) cycles := by
  simp only [playFrom, playThroughFrom, h, and_self]

/-- A frame that leaves the machine paused ends the run. -/
theorem playFrom_of_paused
    (h : (m.playFrame (KeyPress.keysAt script frame) cycles).result = .ok ())
    (hp : (m.playFrame (KeyPress.keysAt script frame) cycles).machine.flags.paused = true) :
    m.playFrom script cycles frame (left + 1) =
      m.playFrame (KeyPress.keysAt script frame) cycles := by
  simp only [playFrom, h, hp, if_true]

/-- After a frame that leaves the machine running, the run goes on with the next. -/
theorem playFrom_of_running
    (h : (m.playFrame (KeyPress.keysAt script frame) cycles).result = .ok ())
    (hp : (m.playFrame (KeyPress.keysAt script frame) cycles).machine.flags.paused = false) :
    m.playFrom script cycles frame (left + 1) =
      (m.playFrame (KeyPress.keysAt script frame) cycles).machine.playFrom script cycles
        (frame + 1) left := by
  simp only [playFrom, h, hp, Bool.false_eq_true, if_false]

/-- A run without an early end goes on after every frame that succeeds. -/
theorem playThroughFrom_of_ok
    (h : (m.playFrame (KeyPress.keysAt script frame) cycles).result = .ok ()) :
    m.playThroughFrom script cycles frame (left + 1) =
      (m.playFrame (KeyPress.keysAt script frame) cycles).machine.playThroughFrom script cycles
        (frame + 1) left := by
  simp only [playThroughFrom, h]

end Play

end Machine
end Chip8
