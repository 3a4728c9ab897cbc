/-
# Templates

A template says what a sequence of symbols looks like: at some places a symbol is
fixed, at the others stands a digit of an operand.  A template is written as a text in
which letters stand for the operands; an operand has as many digits as its letter has
places, the most significant first.

| letter | operand | digits |
| --- | --- | ---: |
| `A` | an address, or a whole word that is no instruction | 3, 4 |
| `B` | a byte | 2 |
| `x`, `y` | a register | 1 |
| `n` | the size of a sprite | 1 |

Two facts make templates useful.  What is filled in can be read back, as far as there
are places for it (`fill_eq_iff`); and whether two templates have nothing in common
shows without filling them (`ne_of_apart`).
-/

import Mathlib.Algebra.Ring.Nat
import Mathlib.Data.List.Pairwise

namespace Chip8

/-- The letter of an operand in a template. -/
inductive Letter where
  | A
  | B
  | x
  | y
  | n
  deriving DecidableEq, Repr

/-- The operand that a character stands for. -/
def Letter.ofChar? : Char → Option Letter
  | 'A' => some .A
  | 'B' => some .B
  | 'x' => some .x
  | 'y' => some .y
  | 'n' => some .n
  | _ => none

/-- A place of a template. -/
inductive Slot (σ : Type) where
  /-- Always the same symbol. -/
  | fixed (s : σ)
  /-- A digit of an operand. -/
  | digit (c : Letter)
  deriving DecidableEq, Repr

/-- A template of symbols. -/
abbrev Template (σ : Type) := List (Slot σ)

namespace Template

variable {σ : Type}

/-- The template that a text writes down; a character that is no letter of an operand
gives a fixed symbol. -/
def ofString (symbol : Char → σ) (text : String) : Template σ :=
  text.toList.map fun c => (Letter.ofChar? c).elim (.fixed (symbol c)) .digit

/-- The number of digits that an operand has in a template. -/
@[simp] def width (c : Letter) : Template σ → Nat
  | [] => 0
  | .fixed _ :: p => width c p
  | .digit d :: p => if d = c then width c p + 1 else width c p

/-- A template filled with the values of the operands, each digit written by `write`. -/
@[simp] def fill (write : Letter → Nat → σ) (v : Letter → Nat) : Template σ → List σ
  | [] => []
  | .fixed s :: p => s :: fill write v p
  | .digit c :: p => write c (v c / 16 ^ width c p % 16) :: fill write v p

variable {write : Letter → Nat → σ} {v v' : Letter → Nat} {p q : Template σ}

/-- Fixed symbols stand in front as they are. -/
theorem fill_fixed_append (cs : List σ) (p : Template σ) :
    fill write v (cs.map Slot.fixed ++ p) = cs ++ fill write v p := by
  induction cs with
  | nil => rfl
  | cons c cs ih => exact congrArg (c :: ·) ih

/-- Every symbol of a filled template is fixed there or a digit. -/
theorem mem_fill {s : σ} (h : s ∈ fill write v p) :
    .fixed s ∈ p ∨ ∃ c, ∃ d < 16, s = write c d := by
  induction p with
  | nil => cases h
  | cons slot p ih =>
    have hrest (hmem : s ∈ fill write v p) :
        .fixed s ∈ slot :: p ∨ ∃ c, ∃ d < 16, s = write c d :=
      (ih hmem).imp_left (List.mem_cons_of_mem slot)
    cases slot with
    | fixed t =>
      rcases List.mem_cons.1 h with rfl | hmem
      · exact .inl List.mem_cons_self
      · exact hrest hmem
    | digit c =>
      rcases List.mem_cons.1 h with rfl | hmem
      · exact .inr ⟨c, _, Nat.mod_lt _ (by decide), rfl⟩
      · exact hrest hmem

/-- The last `k + 1` digits are the last `k` and the one before them. -/
theorem mod_pow_succ_eq_iff {a b k : Nat} :
    a % 16 ^ (k + 1) = b % 16 ^ (k + 1) ↔
      a / 16 ^ k % 16 = b / 16 ^ k % 16 ∧ a % 16 ^ k = b % 16 ^ k := by
  constructor
  · intro h
    constructor
    · rw [← Nat.mod_mul_right_div_self, ← Nat.mod_mul_right_div_self, ← Nat.pow_succ, h]
    · have hdvd : 16 ^ k ∣ 16 ^ (k + 1) := Nat.pow_dvd_pow 16 (Nat.le_succ k)
      rw [← Nat.mod_mod_of_dvd a hdvd, ← Nat.mod_mod_of_dvd b hdvd, h]
  · rintro ⟨hdigit, hrest⟩
    rw [Nat.mod_pow_succ, Nat.mod_pow_succ, hdigit, hrest]

/-- **A filled template tells the operands,** each as far as it has digits. -/
theorem fill_eq_iff (hwrite : ∀ c, ∀ d < 16, ∀ e < 16, write c d = write c e → d = e) :
    fill write v p = fill write v' p ↔
      ∀ c, v c % 16 ^ width c p = v' c % 16 ^ width c p := by
  induction p with
  | nil => simp only [fill, width, Nat.pow_zero, Nat.mod_one, implies_true]
  | cons slot p ih =>
    cases slot with
    | fixed s =>
      rw [fill, fill, List.cons_inj_right, ih]
      rfl
    | digit d =>
      rw [fill, fill, List.cons.injEq, ih]
      constructor
      · rintro ⟨hhead, hrest⟩ c
        have hdigit := hwrite d _ (Nat.mod_lt _ (by decide)) _ (Nat.mod_lt _ (by decide)) hhead
        rw [width]
        split
        · rename_i hc
          subst hc
          exact mod_pow_succ_eq_iff.2 ⟨hdigit, hrest d⟩
        · exact hrest c
      · intro h
        have hd := h d
        rw [width, if_pos rfl, mod_pow_succ_eq_iff] at hd
        refine ⟨congrArg (write d) hd.1, fun c => ?_⟩
        have hc := h c
        rw [width] at hc
        split at hc
        · rename_i heq
          exact heq ▸ hd.2
        · exact hc

section Apart

variable [DecidableEq σ]

/-- No symbol fits both places: two symbols that differ, or one that no digit is written
as. -/
def slotsApart (write : Letter → Nat → σ) : Slot σ → Slot σ → Bool
  | .fixed s, .fixed t => s != t
  | .fixed s, .digit c | .digit c, .fixed s => (List.range 16).all fun d => write c d != s
  | .digit _, .digit _ => false

/-- The templates differ in length, or at some place no symbol fits both. -/
def apart (write : Letter → Nat → σ) : Template σ → Template σ → Bool
  | [], [] => false
  | [], _ :: _ | _ :: _, [] => true
  | a :: p, b :: q => slotsApart write a b || apart write p q

/-- A symbol that is none of the sixteen digits is never written for a digit. -/
theorem write_ne_of_all {c : Letter} {s : σ}
    (h : ((List.range 16).all fun d => write c d != s) = true) (k : Nat) :
    write c (k % 16) ≠ s := by
  have hmem : k % 16 ∈ List.range 16 := List.mem_range.2 (Nat.mod_lt k (by decide))
  exact bne_iff_ne.1 (List.all_eq_true.1 h _ hmem)

/-- **Templates that are apart have no filling in common.** -/
theorem ne_of_apart (h : apart write p q = true) : fill write v p ≠ fill write v' q := by
  induction p generalizing q with
  | nil =>
    cases q with
    | nil => cases h
    | cons b q => cases b <;> exact nofun
  | cons a p ih =>
    cases q with
    | nil => cases a <;> exact nofun
    | cons b q =>
      rw [apart, Bool.or_eq_true] at h
      intro heq
      rcases h with hslots | hrest
      · cases a with
        | fixed s =>
          cases b with
          | fixed t => exact bne_iff_ne.1 hslots (List.cons.inj heq).1
          | digit c => exact write_ne_of_all hslots _ (List.cons.inj heq).1.symm
        | digit c =>
          cases b with
          | fixed t => exact write_ne_of_all hslots _ (List.cons.inj heq).1
          | digit d => cases hslots
      · refine ih hrest ?_
        cases a <;> cases b <;> exact (List.cons.inj heq).2

/-- In a list of things whose templates are apart, a filling tells the thing. -/
theorem eq_of_fill_eq {α : Type} {t : α → Template σ} {l : List α}
    (hl : l.Pairwise fun a b => apart write (t a) (t b) = true) {a b : α} (ha : a ∈ l) (hb : b ∈ l)
    (h : fill write v (t a) = fill write v' (t b)) : a = b := by
  by_contra hab
  have hsymm : Std.Symm fun a b : α => ∀ v v', fill write v (t a) ≠ fill write v' (t b) :=
    ⟨fun _ _ hne v v' heq => hne v' v heq.symm⟩
  have hne : l.Pairwise fun a b => ∀ v v', fill write v (t a) ≠ fill write v' (t b) :=
    hl.imp fun hapart _ _ => ne_of_apart hapart
  exact hne.forall ha hb hab v v' h

end Apart
end Template
end Chip8
