/-
# Outcomes

What comes of a call or of an instruction: its result, the machine it leaves and
the records it adds to the log.  The machine is changed in place, so a failure
leaves a machine too, whatever had been changed by then; that it is the machine
as it was before is a fact about each call (`machine_step_of_error`,
`load_eq_error`, `setKey_eq_error`).
-/

import Chip8.Machine.Basic
import Chip8.Record

namespace Chip8

/-- What comes of a call. -/
structure Outcome (α : Type) where
  result : Except Fault α
  /-- The machine after the call, failed or not. -/
  machine : Machine
  /-- The records of the call, in order. -/
  log : List Record

namespace Outcome

/-- A success with nothing to tell. -/
def done (m : Machine) : Outcome Unit := ⟨.ok (), m, []⟩

/-- A failure that leaves the machine `m`. -/
def failed (f : Fault) (m : Machine) : Outcome Unit := ⟨.error f, m, []⟩

/-- The same outcome with another result. -/
def map {α β : Type} (f : α → β) (o : Outcome α) : Outcome β :=
  { o with result := o.result.map f }

/-- The same outcome with records in front of its log. -/
def after {α : Type} (o : Outcome α) (log : List Record) : Outcome α :=
  { o with log := log ++ o.log }

end Outcome
end Chip8
