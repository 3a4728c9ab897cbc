/-
# Host calls as data

Every way in which a host can change a machine, as one type, so that a session
with a machine is a list of calls.  `apply` performs a call, `run` a list of
them, one after the other whether they succeed or not; `log` has the records of a
whole session.
-/

import Chip8.Machine.Cycle

namespace Chip8

/-- New values for some of the flags. -/
structure Flags.Change where
  tracing : Option Bool
  paused : Option Bool
  awaiting : Option Nat
  pressed : Option Nat
  deriving DecidableEq, Repr

/-- The flags with the given ones changed. -/
def Flags.change (f : Flags) (c : Flags.Change) : Flags where
  tracing := c.tracing.getD f.tracing
  paused := c.paused.getD f.paused
  awaiting := c.awaiting.or f.awaiting
  pressed := c.pressed.or f.pressed

/-- A call of the host. -/
inductive HostCall where
  /-- Loads a program. -/
  | load (program : List UInt8)
  /-- Loads the contents of a file, if it could be read. -/
  | loadFile (contents : Except FileError (List UInt8))
  /-- Presses or releases a key. -/
  | setKey (key : Nat) (pressed : Bool)
  /-- Releases every key. -/
  | releaseAll
  /-- Resets the machine. -/
  | reset
  /-- Lets the timers tick. -/
  | tickTimers
  /-- Runs one cycle unless the machine is paused. -/
  | tick
  /-- Runs one cycle. -/
  | singlestep
  /-- Runs cycles up to the first failure. -/
  | multistep (n : Nat)
  /-- Runs the cycles of a frame and lets the timers tick. -/
  | frame (n : Nat)
  /-- Turns tracing on or off. -/
  | toggleTracing
  /-- Pauses the machine or lets it run. -/
  | togglePaused
  /-- Sets some of the flags. -/
  | changeFlags (change : Flags.Change)
  /-- Sets every flag. -/
  | setFlags (flags : Flags)

/-- What a successful call answers. -/
inductive Reply where
  /-- The call is done and has nothing to say. -/
  | done
  /-- The call did or did not change the state of a key. -/
  | changed (did : Bool)
  deriving DecidableEq, Repr

namespace HostCall

/-- Performs a call. -/
def apply (m : Machine) : HostCall → Outcome Reply
  | .load program => (m.load program).map fun _ => .done
  | .loadFile contents => (m.loadFile contents).map fun _ => .done
  | .setKey key pressed => (m.setKey key pressed).map .changed
  | .releaseAll => ⟨.ok .done, m.releaseAll, []⟩
  | .reset => ⟨.ok .done, m.reset, [.reset]⟩
  | .tickTimers => ⟨.ok .done, m.tickTimers, [m.tickTimers.timersRecord]⟩
  | .tick => m.tick.map fun _ => .done
  | .singlestep => m.singlestep.map fun _ => .done
  | .multistep n => (m.multistep n).map fun _ => .done
  | .frame n => (m.frame n).map fun _ => .done
  | .toggleTracing => ⟨.ok .done, { m with flags := m.flags.toggleTracing }, []⟩
  | .togglePaused => ⟨.ok .done, { m with flags := m.flags.togglePaused }, []⟩
  | .changeFlags change => ⟨.ok .done, { m with flags := m.flags.change change }, []⟩
  | .setFlags flags => ⟨.ok .done, { m with flags := flags }, []⟩

/-- Performs calls one after the other. -/
def run (m : Machine) (calls : List HostCall) : Machine :=
  calls.foldl (fun m c => (c.apply m).machine) m

/-- The records that calls add to the log, one call after the other. -/
def log (m : Machine) : List HostCall → List Record
  | [] => []
  | c :: calls => (c.apply m).log ++ log (c.apply m).machine calls

/-- The calls of a session can be made in two parts. -/
theorem run_append (m : Machine) (a b : List HostCall) : run m (a ++ b) = run (run m a) b := by
  simp [run]

end HostCall
end Chip8
