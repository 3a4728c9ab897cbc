/-
# The timers

Two bytes that count down to zero, one step for each tick of the host's clock.
The delay timer can be read by the program; the buzzer sounds while the sound
timer is not zero.
-/

namespace Chip8

/-- The delay timer and the sound timer. -/
structure Timers where
  delay : UInt8
  sound : UInt8
  deriving DecidableEq, Repr

namespace Timers

/-- Both timers are zero. -/
def zero : Timers := ⟨0, 0⟩

/-- One less, but not below zero. -/
def countDown (t : UInt8) : UInt8 := if t = 0 then 0 else t - 1

/-- Both timers count down by one. -/
def tick (t : Timers) : Timers := ⟨countDown t.delay, countDown t.sound⟩

/-- The buzzer sounds. -/
def beeping (t : Timers) : Bool := t.sound != 0

/-- Counting down is subtraction that stops at zero. -/
theorem toNat_countDown (t : UInt8) : (countDown t).toNat = t.toNat - 1 := by
  unfold countDown
  split
  · subst_vars; rfl
  · rename_i h
    have h0 : t.toNat ≠ 0 := fun e => h (UInt8.toNat_inj.1 e)
    have := t.toNat_lt
    rw [UInt8.toNat_sub_of_le _ _ (by rw [UInt8.le_iff_toNat_le, UInt8.toNat_one]; omega)]
    rfl

/-- The buzzer sounds as long as something is left on the sound timer. -/
theorem beeping_iff (t : Timers) : t.beeping = true ↔ 0 < t.sound.toNat := by
  simp only [beeping, bne_iff_ne, ne_eq, ← UInt8.toNat_inj, UInt8.toNat_zero]
  omega

end Timers
end Chip8
