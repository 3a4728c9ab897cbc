/-
# Sprites, drawn one after another

What drawing does to a screen is known pixel by pixel: a pixel is inverted as often as
the sprite sets it (`get_drawFrom`).  An exclusive or with something that does not depend
on the screen forgets the order and undoes itself, and so does a drawing:

| drawn | the screen afterwards |
| --- | --- |
| a sprite twice, at the same place | as before |
| two sprites, in either order | the same |
| the upper rows of a sprite, then the others below | as after the whole sprite |
| a sprite 64 columns to the right or 32 rows down | the same |

The collision flag does depend on what was lit.  A sprite and its erasure together put
out as many pixels as the sprite has set bits (`extinguished_add_extinguished`), so one
of the two reports a collision unless the sprite is empty.  Counting settles this for
sprites that overlap themselves too, which an argument row by row would not.
-/

import Chip8.Proofs.Drawing
import Chip8.Proofs.LitPixels

namespace Chip8
namespace Screen

/-- Two screens with the same pixels are the same. -/
theorem eq_of_get_eq {s t : Screen} (h : ∀ px py, s.get px py = t.get px py) : s = t := by
  refine congrArg Screen.mk (Vector.ext fun r hr => BitVec.eq_of_getMsbD_eq fun c hc => ?_)
  have hpixel : s.rows[r % 32].getMsbD (c % 64) = t.rows[r % 32].getMsbD (c % 64) := h c r
  simp only [Nat.mod_eq_of_lt hc, Nat.mod_eq_of_lt hr] at hpixel
  exact hpixel

/-- Drawing inverts the pixels that the sprite inverts. -/
theorem get_draw (s : Screen) (x y : Nat) (bs : List UInt8) (px py : Nat) :
    (s.draw x y bs).1.get px py = (s.get px py ^^ inverts x y bs px py) :=
  s.get_drawFrom false x y bs px py

/-- **A sprite drawn twice is erased.** -/
theorem draw_draw_self (s : Screen) (x y : Nat) (bs : List UInt8) :
    ((s.draw x y bs).1.draw x y bs).1 = s := by
  refine eq_of_get_eq fun px py => ?_
  rw [get_draw, get_draw, Bool.xor_assoc, Bool.xor_self, Bool.xor_false]

/-- **Sprites can be drawn in any order.** -/
theorem draw_draw_comm (s : Screen) (x y : Nat) (bs : List UInt8) (x' y' : Nat)
    (bs' : List UInt8) :
    ((s.draw x y bs).1.draw x' y' bs').1 = ((s.draw x' y' bs').1.draw x y bs).1 := by
  refine eq_of_get_eq fun px py => ?_
  rw [get_draw, get_draw, get_draw, get_draw, Bool.xor_assoc, Bool.xor_assoc,
    Bool.xor_comm (inverts x y bs px py)]

/-! ## A sprite in parts -/

/-- Rows that have turned a pixel off are remembered, and make no other difference. -/
theorem drawFrom_eq (s : Screen) (hit : Bool) (x y : Nat) (bs : List UInt8) :
    s.drawFrom hit x y bs = ((s.draw x y bs).1, hit || (s.draw x y bs).2) := by
  rw [draw]
  induction bs generalizing s hit y with
  | nil => rw [drawFrom, drawFrom, Bool.or_false]
  | cons b bs ih =>
    simp only [drawFrom]
    rw [ih, ih _ (false || _), Bool.false_or, Bool.or_assoc]

/-- A sprite can be drawn in two parts, one below the other. -/
theorem drawFrom_append (s : Screen) (hit : Bool) (x y : Nat) (p q : List UInt8) :
    s.drawFrom hit x y (p ++ q) =
      (s.drawFrom hit x y p).1.drawFrom (s.drawFrom hit x y p).2 x (y + p.length) q := by
  induction p generalizing s hit y with
  | nil => rfl
  | cons b p ih =>
    rw [List.cons_append, drawFrom, drawFrom, ih, List.length_cons, Nat.add_right_comm,
      Nat.add_assoc]

/-- **A sprite can be drawn in two parts,** the second below the first. -/
theorem draw_append (s : Screen) (x y : Nat) (p q : List UInt8) :
    s.draw x y (p ++ q) =
      (((s.draw x y p).1.draw x (y + p.length) q).1,
        (s.draw x y p).2 || ((s.draw x y p).1.draw x (y + p.length) q).2) := by
  rw [draw, drawFrom_append, drawFrom_eq]
  rfl

/-! ## A sprite at another place -/

/-- Columns wrap at the right edge. -/
theorem spriteRow_mod (x : Nat) (b : UInt8) : spriteRow (x % 64) b = spriteRow x b := by
  refine BitVec.eq_of_getMsbD_eq fun c hc => ?_
  rw [getMsbD_spriteRow _ _ hc, getMsbD_spriteRow _ _ hc, Nat.mod_mod]

/-- Drawing looks at the column of the first pixel modulo 64 and at its row modulo 32. -/
theorem drawFrom_congr {x x' y y' : Nat} (hx : x % 64 = x' % 64) (hy : y % 32 = y' % 32)
    (s : Screen) (hit : Bool) (bs : List UInt8) :
    s.drawFrom hit x y bs = s.drawFrom hit x' y' bs := by
  induction bs generalizing s hit y y' with
  | nil => rfl
  | cons b bs ih =>
    have hrow : spriteRow x b = spriteRow x' b := by
      rw [← spriteRow_mod x, hx, spriteRow_mod]
    have hnext : (y + 1) % 32 = (y' + 1) % 32 := by omega
    simp only [drawFrom, flip, overlaps, hrow, hy]
    exact ih hnext ..

/-! ## Both drawings of a sprite -/

/-- A byte without set bits is zero. -/
theorem byteWeight_eq_zero_iff (b : UInt8) : byteWeight b = 0 ↔ b = 0 := by
  rw [byteWeight, List.countP_eq_zero]
  constructor
  · intro h
    refine UInt8.toBitVec_inj.1 (BitVec.eq_of_getLsbD_eq fun i hi => ?_)
    rw [Bool.eq_false_iff.2 (h i (List.mem_range.2 hi))]
    exact BitVec.getLsbD_zero.symm
  · rintro rfl i -
    exact Bool.eq_false_iff.1 BitVec.getLsbD_zero

/-- A sprite without set bits has zeros only. -/
theorem weight_eq_zero_iff (bs : List UInt8) : weight bs = 0 ↔ ∀ b ∈ bs, b = 0 := by
  induction bs with
  | nil => exact ⟨fun _ => nofun, fun _ => rfl⟩
  | cons b bs ih =>
    rw [weight_cons, Nat.add_eq_zero_iff, byteWeight_eq_zero_iff, ih, List.forall_mem_cons]

/-- **Drawing a sprite and erasing it put out a pixel for each of its bits,** since the
lit pixels are as many in the end as they were at first. -/
theorem extinguished_add_extinguished (s : Screen) (x y : Nat) (bs : List UInt8) :
    s.extinguished x y bs + (s.draw x y bs).1.extinguished x y bs = weight bs := by
  have hdraw := s.countLit_drawFrom false x y bs
  have herase := (s.draw x y bs).1.countLit_drawFrom false x y bs
  have hback : ((s.draw x y bs).1.drawFrom false x y bs).1 = s := s.draw_draw_self x y bs
  rw [hback, draw] at herase
  rw [draw]
  omega

/-- A collision is told exactly if a lit pixel has been put out. -/
theorem snd_draw_eq_true_iff (s : Screen) (x y : Nat) (bs : List UInt8) :
    (s.draw x y bs).2 = true ↔ s.extinguished x y bs ≠ 0 := by
  have hdark := s.snd_drawFrom_eq_false_iff false x y bs
  rw [← Bool.not_eq_false, draw, hdark]
  exact not_congr (and_iff_right rfl)

/-- **Drawing undoes itself, in any order and in any parts.**  For every screen, every
place and every sprite, longer than the screen is high or not: the sprite drawn twice
leaves the screen as it was, and one of the two drawings reports a collision exactly if
some byte of the sprite is not zero; with a second sprite the screen ends up the same in
either order; a sprite in two parts is its first part and then, that many rows further
down, its second, with a collision if there was one in either; and the place counts
modulo 64 and 32. -/
theorem draw_involutive_commutative_sequential (s : Screen) (x y : Nat) (sprite : List UInt8) :
    let once := s.draw x y sprite
    let twice := once.1.draw x y sprite
    (twice.1 = s ∧ ((once.2 || twice.2) = true ↔ ∃ b ∈ sprite, b ≠ 0)) ∧
    (∀ x' y' sprite', (once.1.draw x' y' sprite').1 =
      ((s.draw x' y' sprite').1.draw x y sprite).1) ∧
    (∀ p q : List UInt8,
      let upper := s.draw x y p
      let lower := upper.1.draw x (y + p.length) q
      s.draw x y (p ++ q) = (lower.1, upper.2 || lower.2)) ∧
    s.draw (x % 64) (y % 32) sprite = once := by
  intro once twice
  refine ⟨⟨s.draw_draw_self x y sprite, ?_⟩, s.draw_draw_comm x y sprite, s.draw_append x y, ?_⟩
  · have hsum : s.extinguished x y sprite + once.1.extinguished x y sprite = weight sprite :=
      s.extinguished_add_extinguished x y sprite
    have hempty := weight_eq_zero_iff sprite
    rw [Bool.or_eq_true, snd_draw_eq_true_iff, snd_draw_eq_true_iff]
    constructor
    · intro hout
      have hweight : weight sprite ≠ 0 := by omega
      rw [Ne, hempty] at hweight
      push Not at hweight
      exact hweight
    · rintro ⟨b, hb, hne⟩
      have hweight : weight sprite ≠ 0 := fun hzero => hne (hempty.1 hzero b hb)
      omega
  · exact drawFrom_congr (Nat.mod_mod ..) (Nat.mod_mod ..) s false sprite

end Screen
end Chip8
