/-
# Scripted key presses

A scripted press is written `K@FRAME`: the key in hexadecimal and the frame in
decimal, both numerals of at most 64 bits.  The text is split at its first `@`;
the key is read before the frame, so of two bad numerals the key is reported.
-/

import Chip8.Text.Numeral.Reader
import Chip8.Text.Quoted

namespace Chip8

/-- A key to press at the beginning of a frame. -/
structure KeyPress where
  key : Nat
  frame : Nat
  deriving DecidableEq, Repr

namespace KeyPress

/-- Why a text is not a scripted press. -/
inductive Refusal where
  /-- There is no `@` in the text. -/
  | unsplit (text : String)
  /-- The part before the `@` is not a key. -/
  | key (part : String) (why : Text.Numeral.Refusal)
  /-- The part after the `@` is not a frame. -/
  | frame (part : String) (why : Text.Numeral.Refusal)
  deriving DecidableEq, Repr

/-- The sentence that explains a refusal. -/
def Refusal.message : Refusal → String
  | .unsplit text => "expected K@FRAME, got " ++ Text.quote text
  | .key part why => "key " ++ Text.quote part ++ ": " ++ why.message
  | .frame part why => "frame " ++ Text.quote part ++ ": " ++ why.message

/-- The parts of a text before and after its first `@`. -/
def split? : List Char → Option (List Char × List Char)
  | [] => none
  | c :: cs => if c = '@' then some ([], cs) else (split? cs).map fun p => (c :: p.1, p.2)

/-- Reads a scripted press. -/
def read (text : String) : Except Refusal KeyPress :=
  match split? text.toList with
  | none => .error (.unsplit text)
  | some (k, f) =>
    match Text.Numeral.read 16 UInt64.size (String.ofList k) with
    | .error why => .error (.key (String.ofList k) why)
    | .ok key =>
      match Text.Numeral.readDecimal (String.ofList f) with
      | .error why => .error (.frame (String.ofList f) why)
      | .ok frame => .ok ⟨key, frame⟩

/-- **Splitting finds the first `@`.** -/
theorem split?_eq_some_iff {cs k f : List Char} :
    split? cs = some (k, f) ↔ cs = k ++ '@' :: f ∧ '@' ∉ k := by
  induction cs generalizing k with
  | nil => simp [split?]
  | cons c cs ih =>
    rw [split?]
    split
    · rename_i h
      subst h
      cases k with
      | nil => simp
      | cons d k => grind
    · rename_i h
      cases k with
      | nil => simp [h]
      | cons d k =>
        simp only [Option.map_eq_some_iff, Prod.exists, Prod.mk.injEq, List.cons.injEq,
          List.cons_append, List.mem_cons, not_or]
        constructor
        · rintro ⟨a, b, hab, ⟨rfl, rfl⟩, rfl⟩
          have := ih.1 hab
          exact ⟨⟨rfl, this.1⟩, Ne.symm h, this.2⟩
        · rintro ⟨⟨rfl, rfl⟩, -, hk⟩
          exact ⟨k, f, ih.2 ⟨rfl, hk⟩, ⟨rfl, rfl⟩, rfl⟩

end KeyPress
end Chip8
