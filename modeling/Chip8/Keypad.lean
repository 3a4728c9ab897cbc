/-
# The keypad

Sixteen keys, numbered from zero, each held or not.  Asking is possible for any
number, and a key that does not exist is not held; pressing or releasing is
refused outside the keypad.
-/

import Chip8.Fault

namespace Chip8

/-- The keys that are held. -/
structure Keypad where
  held : Vector Bool 16
  deriving DecidableEq

namespace Keypad

/-- No key is held. -/
def released : Keypad := ⟨.replicate 16 false⟩

/-- The key is on the keypad and held. -/
def isHeld (k : Keypad) (key : Nat) : Bool := if h : key < 16 then k.held[key] else false

/-- Presses or releases a key, and tells whether this changed the key. -/
def set (k : Keypad) (key : Nat) (pressed : Bool) : Except Fault (Keypad × Bool) :=
  if h : key < 16 then .ok (⟨k.held.set key pressed⟩, k.held[key] != pressed)
  else .error (.invalidKey key)

/-- When every key is released, none is held. -/
theorem isHeld_released (key : Nat) : released.isHeld key = false := by
  simp [isHeld, released]

/-- A key that is not on the keypad is never held. -/
theorem isHeld_of_le (k : Keypad) {key : Nat} (h : 16 ≤ key) : k.isHeld key = false :=
  dif_neg (by omega)

/-- Setting a key tells whether it was in the other state. -/
theorem set_eq (k : Keypad) {key : Nat} (pressed : Bool) (h : key < 16) :
    k.set key pressed = .ok (⟨k.held.set key pressed⟩, k.isHeld key != pressed) := by
  simp [set, isHeld, h]

/-- A set key is as it was set, the others stay. -/
theorem isHeld_set {k k' : Keypad} {key : Nat} {pressed changed : Bool}
    (h : k.set key pressed = .ok (k', changed)) (other : Nat) :
    k'.isHeld other = if other = key then pressed else k.isHeld other := by
  unfold set at h
  split at h
  · rename_i hk
    obtain ⟨rfl, -⟩ := Prod.mk.inj (Except.ok.inj h)
    simp only [isHeld]
    by_cases ho : other < 16
    · simp only [ho, dite_true, Vector.getElem_set, eq_comm]
    · simp only [ho, dite_false]
      rw [if_neg (by omega)]
  · cases h

end Keypad
end Chip8
