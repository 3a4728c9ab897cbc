/-
# Checked operations

The definitions of this library cannot go out of bounds: the type of an index bounds it,
and natural numbers have room for every sum.  Only the addresses of a listing are formed
in words, and say so when they overflow (`Arithmetic`).  A machine has no such types.  It
checks each operation as it comes to it, and refuses one that goes out of bounds:

| operation | is refused |
| --- | --- |
| `get`, `set`, `item` | outside of the array or the list |
| `range` | if it runs backwards or beyond the end of the array |
| `copy` | between slices of different lengths |
| `add`, `mul` | if the result is too large for its type |
| `sub` | if the result is less than zero |
| `shift` | by the width of the word or more |

A checked computation ends with the first operation that is refused, so one that comes
out `.ok` goes out of bounds nowhere.  Arithmetic that is meant to wrap around, to
saturate or to report a carry is never refused, and neither is an access that may come
out empty.
-/

import Chip8.Memory.Basic

namespace Chip8

/-- Why an operation is refused. -/
inductive Trap where
  /-- An array or list of `length` elements has no element `i`. -/
  | index (i length : Nat)
  /-- An array of `length` elements has no slice from `start` up to `stop`. -/
  | range (start stop length : Nat)
  /-- A slice of `target` elements does not take `source` elements. -/
  | lengths (target source : Nat)
  /-- The result is not one of the `size` values of its type. -/
  | overflow (size : Nat)
  /-- A word of `width` bits is not shifted by `amount`. -/
  | shift (amount width : Nat)
  deriving DecidableEq, Repr

/-- The result of checked operations, unless one is refused. -/
abbrev Checked := Except Trap

namespace Checked

/-- An element of an array. -/
def get {α : Type} {n : Nat} (xs : Vector α n) (i : Nat) : Checked α :=
  if h : i < n then .ok xs[i] else .error (.index i n)

/-- An array with another element at an index. -/
def set {α : Type} {n : Nat} (xs : Vector α n) (i : Nat) (a : α) : Checked (Vector α n) :=
  if h : i < n then .ok (xs.set i a) else .error (.index i n)

/-- An element of a list. -/
def item {α : Type} (xs : List α) (i : Nat) : Checked α :=
  if h : i < xs.length then .ok xs[i] else .error (.index i xs.length)

/-- A slice of an array. -/
def range (start stop length : Nat) : Checked Unit :=
  if start ≤ stop ∧ stop ≤ length then .ok () else .error (.range start stop length)

/-- A copy into a slice. -/
def copy (target source : Nat) : Checked Unit :=
  if target = source then .ok () else .error (.lengths target source)

/-- A sum in a type of `size` values. -/
def add (size a b : Nat) : Checked Nat :=
  if a + b < size then .ok (a + b) else .error (.overflow size)

/-- A product in a type of `size` values. -/
def mul (size a b : Nat) : Checked Nat :=
  if a * b < size then .ok (a * b) else .error (.overflow size)

/-- A difference in a type of `size` values. -/
def sub (size a b : Nat) : Checked Nat :=
  if b ≤ a then .ok (a - b) else .error (.overflow size)

/-- The amount of a shift. -/
def shift (amount width : Nat) : Checked Nat :=
  if amount < width then .ok amount else .error (.shift amount width)

section Ok

variable {α : Type} {a b i length n size start stop width : Nat}

/-- An element within the array is not refused. -/
theorem get_of_lt {xs : Vector α n} (h : i < n) : get xs i = .ok xs[i] := dif_pos h

/-- Setting an element within the array is not refused. -/
theorem set_of_lt {xs : Vector α n} {c : α} (h : i < n) : set xs i c = .ok (xs.set i c) :=
  dif_pos h

/-- A slice within the array is not refused. -/
theorem range_of_le (h : start ≤ stop) (hstop : stop ≤ length) :
    range start stop length = .ok () := if_pos ⟨h, hstop⟩

/-- A copy of the right length is not refused. -/
theorem copy_of_eq (h : a = b) : copy a b = .ok () := if_pos h

/-- A sum for which there is room is not refused. -/
theorem add_of_lt (h : a + b < size) : add size a b = .ok (a + b) := if_pos h

/-- A product for which there is room is not refused. -/
theorem mul_of_lt (h : a * b < size) : mul size a b = .ok (a * b) := if_pos h

/-- A difference that is not negative is not refused. -/
theorem sub_of_le (h : b ≤ a) : sub size a b = .ok (a - b) := if_pos h

/-- A shift by less than the width is not refused. -/
theorem shift_of_lt (h : a < width) : shift a width = .ok a := if_pos h

end Ok

/-- A computation goes on with what came out of an operation that was not refused. -/
theorem ok_bind {α β : Type} (a : α) (f : α → Checked β) :
    ((Except.ok a : Checked α) >>= f) = f a := rfl

/-- What is done to each element of a list is refused nowhere if it is refused for none. -/
theorem mapM_ok {α β : Type} {f : α → Checked β} {g : α → β} {l : List α}
    (h : ∀ a ∈ l, f a = .ok (g a)) : l.mapM f = .ok (l.map g) := by
  induction l with
  | nil => rfl
  | cons a l ih =>
    obtain ⟨ha, hl⟩ := List.forall_mem_cons.1 h
    rw [List.mapM_cons, ha, ih hl]
    rfl

/-- **A counted loop goes through the states `s`** if each turn of it leads from one to
the next. -/
theorem foldlM_range_ok {β : Type} {f : β → Nat → Checked β} {s : Nat → β} {n : Nat}
    (h : ∀ k < n, f (s k) k = .ok (s (k + 1))) : (List.range n).foldlM f (s 0) = .ok (s n) := by
  induction n with
  | zero => rfl
  | succ n ih =>
    have hbefore : (List.range n).foldlM f (s 0) = .ok (s n) :=
      ih fun k hk => h k (Nat.lt_succ_of_lt hk)
    have hlast : f (s n) n = .ok (s (n + 1)) := h n (Nat.lt_succ_self n)
    rw [List.range_succ, List.foldlM_append, hbefore]
    show [n].foldlM f (s n) = _
    rw [List.foldlM_cons, hlast]
    rfl

end Checked
end Chip8
