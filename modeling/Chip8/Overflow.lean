/-
# Sums and products of 64 bits

Natural numbers have room for every sum and product, words of 64 bits have not.  What
becomes of a result that they have no room for depends on how a program is built:

| build | a result of `2 ^ 64` or more |
| --- | --- |
| checked | stops the program |
| wrapping | is taken modulo `2 ^ 64` |

So what is computed in words is written for any `Arithmetic`.  As far as the results have
room it does not matter which (`Arithmetic.Exact`).
-/

namespace Chip8

/-- The operation whose result has no room. -/
inductive Overflow where
  | sum
  | product
  deriving DecidableEq, Repr

/-- The overflow as a message. -/
def Overflow.message : Overflow → String
  | .sum => "attempt to add with overflow"
  | .product => "attempt to multiply with overflow"

/-- How a program forms sums and products. -/
structure Arithmetic (m : Type → Type) where
  add : Nat → Nat → m Nat
  mul : Nat → Nat → m Nat

namespace Arithmetic

/-- A result that has no room in 64 bits stops the program. -/
def checked : Arithmetic (Except Overflow) where
  add := fun a b => if a + b < UInt64.size then .ok (a + b) else .error .sum
  mul := fun a b => if a * b < UInt64.size then .ok (a * b) else .error .product

/-- A result that has no room in 64 bits is taken modulo `2 ^ 64`. -/
def wrapping : Arithmetic Id where
  add := fun a b => pure ((a + b) % UInt64.size)
  mul := fun a b => pure (a * b % UInt64.size)

/-- Sums and products that have room in 64 bits are formed exactly. -/
structure Exact {m : Type → Type} [Monad m] (A : Arithmetic m) : Prop where
  add : ∀ a b, a + b < UInt64.size → A.add a b = pure (a + b)
  mul : ∀ a b, a * b < UInt64.size → A.mul a b = pure (a * b)

/-- What a check lets pass is exact. -/
theorem exact_checked : checked.Exact where
  add := fun _ _ h => if_pos h
  mul := fun _ _ h => if_pos h

/-- What is not cut off is exact. -/
theorem exact_wrapping : wrapping.Exact where
  add := fun _ _ h => congrArg pure (Nat.mod_eq_of_lt h)
  mul := fun _ _ h => congrArg pure (Nat.mod_eq_of_lt h)

/-- A sum that has no room stops a checked program. -/
theorem checked_add_of_le {a b : Nat} (h : UInt64.size ≤ a + b) :
    checked.add a b = .error .sum := if_neg (Nat.not_lt.2 h)

end Arithmetic
end Chip8
