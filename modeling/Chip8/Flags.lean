/-
# The host's flags

State that the host may see and set, beside the machine proper.  A machine that
waits for a key remembers the register that is to receive it; the key that ends
the wait is kept until the waiting instruction runs again and takes it.
-/

namespace Chip8

/-- The flags of the host. -/
structure Flags where
  /-- Every instruction is traced in the log. -/
  tracing : Bool
  /-- The machine stands still, by the host's wish or because the program halted. -/
  paused : Bool
  /-- The register that waits for a key. -/
  awaiting : Option Nat
  /-- The key that ended a wait. -/
  pressed : Option Nat
  deriving DecidableEq, Repr

namespace Flags

/-- No flag is set. -/
def clear : Flags := ⟨false, false, none, none⟩

/-- Turns tracing on or off. -/
def toggleTracing (f : Flags) : Flags := { f with tracing := !f.tracing }

/-- Pauses the machine or lets it run. -/
def togglePaused (f : Flags) : Flags := { f with paused := !f.paused }

/-- The machine waits for a key. -/
def isWaiting (f : Flags) : Bool := f.awaiting.isSome

/-- A key is pressed: if the machine waits for one, it is kept and the wait ends. -/
def notePress (f : Flags) (key : Nat) : Flags :=
  if f.isWaiting then { f with awaiting := none, pressed := some key } else f

end Flags
end Chip8
