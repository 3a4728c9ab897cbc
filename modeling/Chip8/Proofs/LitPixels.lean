/-
# Counting lit pixels

A sprite inverts the pixels that it sets: the dark ones among them light up, the lit
ones go out.  So every set bit of the sprite adds a lit pixel, but for those that put
one out, and these take one away:

| set bit of the sprite | lit pixels | `2 · extinguished` |
| --- | ---: | ---: |
| on a dark pixel | one more | |
| on a lit pixel | one less | two more |

Either way the two columns together grow by one.  This holds of a row, where it counts
the bits of an exclusive or (`rowWeight_xor`), and adds up over the rows of the screen
(`countLit_flip`) and over those of the sprite (`countLit_drawFrom`).  A sprite of more
than 32 rows comes back to rows that it has drawn on, and can put out what it has lit
itself; every row is counted on the screen that it meets, so this makes no difference.
-/

import Chip8.Screen.Basic
import Mathlib.Algebra.BigOperators.Fin
import Mathlib.Data.List.Rotate

namespace Chip8
namespace Screen

/-- The number of bits that are set in a byte. -/
def byteWeight (b : UInt8) : Nat := (List.range 8).countP fun i => b.toBitVec.getLsbD i

/-- The number of bits that are set in a sprite. -/
def weight (sprite : List UInt8) : Nat := (sprite.map byteWeight).sum

/-- Any row wraps to one of the screen. -/
theorem row_lt (y : Nat) : y % 32 < 32 := Nat.mod_lt y (by decide)

/-- The row of the screen on which a row `y` comes to lie. -/
def row (s : Screen) (y : Nat) : BitVec 64 := s.rows.get ⟨y % 32, row_lt y⟩

/-- How many lit pixels the rows of a sprite put out, each on the screen that it meets. -/
def extinguished (s : Screen) (x y : Nat) : List UInt8 → Nat
  | [] => 0
  | b :: bs =>
    rowWeight (s.row y &&& spriteRow x b) +
      (s.flip y (spriteRow x b)).extinguished x (y + 1) bs

/-- The first row of a sprite adds the bits that it sets. -/
theorem weight_cons (b : UInt8) (bs : List UInt8) : weight (b :: bs) = byteWeight b + weight bs := by
  rw [weight, List.map_cons, List.sum_cons, weight]

/-! ## The bits of a row -/

/-- What has exactly one of two properties, and twice what has both, makes what has the one
and what has the other. -/
theorem countP_xor {α : Type} (p q : α → Bool) (l : List α) :
    l.countP (fun a => p a ^^ q a) + 2 * l.countP (fun a => p a && q a) =
      l.countP p + l.countP q := by
  induction l with
  | nil => rfl
  | cons a l ih =>
    simp only [List.countP_cons]
    cases p a <;> cases q a <;> simp <;> omega

/-- **A bit that both rows set is lost twice** when they are combined. -/
theorem rowWeight_xor (a b : BitVec 64) :
    rowWeight (a ^^^ b) + 2 * rowWeight (a &&& b) = rowWeight a + rowWeight b := by
  simp only [rowWeight, BitVec.getLsbD_xor, BitVec.getLsbD_and]
  exact countP_xor _ _ _

/-- A row without lit pixels is zero. -/
theorem rowWeight_eq_zero_iff (row : BitVec 64) : rowWeight row = 0 ↔ row = 0#64 := by
  rw [rowWeight, List.countP_eq_zero]
  constructor
  · intro h
    refine BitVec.eq_of_getLsbD_eq fun i hi => ?_
    rw [BitVec.getLsbD_zero]
    exact Bool.eq_false_iff.2 (h i (List.mem_range.2 hi))
  · rintro rfl i -
    rw [BitVec.getLsbD_zero]
    exact Bool.false_ne_true

/-- Going round the row keeps every bit. -/
theorem rowWeight_rotateRight (row : BitVec 64) (x : Nat) :
    rowWeight (row.rotateRight x) = rowWeight row := by
  have hround : (List.range 64).map (fun i => (i + x) % 64) = (List.range 64).rotate x := by
    refine List.ext_getElem (by simp) fun i _ _ => ?_
    simp [List.getElem_rotate]
  have hbit : ∀ i ∈ List.range 64,
      (row.rotateRight x).getLsbD i = true ↔ row.getLsbD ((i + x) % 64) = true := by
    intro i hi
    have hlt : i < 64 := List.mem_range.1 hi
    rw [BitVec.getLsbD_rotateRight]
    by_cases hwrap : i < 64 - x % 64
    · have : (i + x) % 64 = x % 64 + i := by omega
      simp [hwrap, this]
    · have : (i + x) % 64 = i - (64 - x % 64) := by omega
      simp [hwrap, hlt, this]
  calc rowWeight (row.rotateRight x)
      = (List.range 64).countP fun i => row.getLsbD ((i + x) % 64) := List.countP_congr hbit
    _ = ((List.range 64).map fun i => (i + x) % 64).countP fun i => row.getLsbD i := by
        rw [List.countP_map]
        rfl
    _ = ((List.range 64).rotate x).countP fun i => row.getLsbD i := by rw [hround]
    _ = rowWeight row := (List.rotate_perm _ x).countP_eq _

/-- **A row of a sprite sets as many pixels as its byte has bits.** -/
theorem rowWeight_spriteRow (x : Nat) (b : UInt8) : rowWeight (spriteRow x b) = byteWeight b := by
  have hdark : (List.range 56).countP (fun i => (b.toBitVec ++ 0#56).getLsbD i) = 0 := by
    refine List.countP_eq_zero.2 fun i hi => ?_
    rw [BitVec.getLsbD_append, if_pos (List.mem_range.1 hi), BitVec.getLsbD_zero]
    exact Bool.false_ne_true
  have hbyte (i : Nat) : (b.toBitVec ++ 0#56).getLsbD (56 + i) = b.toBitVec.getLsbD i := by
    rw [BitVec.getLsbD_append, if_neg (by omega), Nat.add_sub_cancel_left]
  have hrange : List.range 64 = List.range 56 ++ (List.range 8).map fun i => 56 + i :=
    @List.range_add 56 8
  rw [spriteRow, rowWeight_rotateRight, rowWeight, hrange, List.countP_append, hdark,
    List.countP_map, Nat.zero_add, byteWeight]
  exact List.countP_congr fun i _ => by rw [Function.comp_apply, hbyte]

/-! ## The rows of the screen -/

/-- The lit pixels, added up over the rows. -/
theorem countLit_eq_sum (s : Screen) : s.countLit = ∑ i : Fin 32, rowWeight s.rows[i] := by
  have hrows : s.rows.toList = List.ofFn fun i : Fin 32 => s.rows[i] := by
    rw [← Vector.toList_ofFn]
    exact congrArg Vector.toList Vector.ofFn_getElem.symm
  calc s.countLit = (s.rows.toList.map rowWeight).sum := by
        rw [countLit, ← Vector.foldl_toList, List.sum_eq_foldl, List.foldl_map]
    _ = ∑ i : Fin 32, rowWeight s.rows[i] := by
        rw [hrows, List.map_ofFn, List.sum_ofFn]
        rfl

/-- **Inverting pixels of a row** lights those that were dark and puts out those that
were lit. -/
theorem countLit_flip (s : Screen) (y : Nat) (bits : BitVec 64) :
    (s.flip y bits).countLit + 2 * rowWeight (s.row y &&& bits) =
      s.countLit + rowWeight bits := by
  let r : Fin 32 := ⟨y % 32, row_lt y⟩
  have hrow (i : Fin 32) :
      rowWeight (s.flip y bits).rows[i] +
          (if r = i then 2 * rowWeight (s.rows[i] &&& bits) else 0) =
        rowWeight s.rows[i] + if r = i then rowWeight bits else 0 := by
    have hset : (s.flip y bits).rows[i] =
        if y % 32 = i.val then s.rows[y % 32] ^^^ bits else s.rows[i] :=
      Vector.getElem_set (row_lt y) i.isLt
    by_cases hi : r = i
    · subst hi
      rw [hset, if_pos rfl, if_pos rfl, if_pos rfl]
      exact rowWeight_xor _ _
    · have hne : y % 32 ≠ i.val := fun he => hi (Fin.ext he)
      rw [hset, if_neg hne, if_neg hi, if_neg hi]
  have hsum := Fintype.sum_congr _ _ hrow
  rw [Finset.sum_add_distrib, Finset.sum_add_distrib, Finset.sum_ite_eq, Finset.sum_ite_eq,
    if_pos (Finset.mem_univ r), if_pos (Finset.mem_univ r)] at hsum
  rw [countLit_eq_sum, countLit_eq_sum]
  exact hsum

/-! ## The rows of a sprite -/

/-- **Every bit of a sprite lights a pixel or puts one out,** also if it comes to lie on
a pixel that an earlier row has inverted. -/
theorem countLit_drawFrom (s : Screen) (hit : Bool) (x y : Nat) (bs : List UInt8) :
    (s.drawFrom hit x y bs).1.countLit + 2 * s.extinguished x y bs = s.countLit + weight bs := by
  induction bs generalizing s hit y with
  | nil => rfl
  | cons b bs ih =>
    have hfirst := s.countLit_flip y (spriteRow x b)
    have hrest := ih (s.flip y (spriteRow x b)) (hit || s.overlaps y (spriteRow x b)) (y + 1)
    rw [rowWeight_spriteRow] at hfirst
    rw [drawFrom, extinguished, weight_cons]
    omega

/-- A row does not overlap the screen if it has no lit pixel in common with it. -/
theorem overlaps_eq_false_iff (s : Screen) (y : Nat) (bits : BitVec 64) :
    s.overlaps y bits = false ↔ rowWeight (s.row y &&& bits) = 0 := by
  rw [overlaps, bne_eq_false_iff_eq]
  exact (rowWeight_eq_zero_iff (s.row y &&& bits)).symm

/-- **Drawing reports a collision if a pixel is put out on the way.** -/
theorem snd_drawFrom_eq_false_iff (s : Screen) (hit : Bool) (x y : Nat) (bs : List UInt8) :
    (s.drawFrom hit x y bs).2 = false ↔ hit = false ∧ s.extinguished x y bs = 0 := by
  induction bs generalizing s hit y with
  | nil => exact ⟨fun h => ⟨h, rfl⟩, And.left⟩
  | cons b bs ih =>
    rw [drawFrom, ih, Bool.or_eq_false_iff, overlaps_eq_false_iff, extinguished,
      Nat.add_eq_zero_iff, and_assoc]

/-- **The collision flag and the number of lit pixels agree.**  However long the sprite
and wherever it is drawn, there are at most as many lit pixels afterwards as before and
set bits together, there are as many modulo two, and there are as many exactly if no
collision is reported. -/
theorem countLit_draw (s : Screen) (x y : Nat) (sprite : List UInt8) :
    let drawn := s.draw x y sprite
    let total := s.countLit + weight sprite
    drawn.1.countLit ≤ total ∧
      drawn.1.countLit % 2 = total % 2 ∧
      (drawn.1.countLit = total ↔ drawn.2 = false) := by
  intro drawn total
  have hcount : drawn.1.countLit + 2 * s.extinguished x y sprite = total :=
    s.countLit_drawFrom false x y sprite
  have hflag : drawn.2 = false ↔ s.extinguished x y sprite = 0 :=
    (s.snd_drawFrom_eq_false_iff false x y sprite).trans (and_iff_right rfl)
  refine ⟨by omega, by omega, ?_⟩
  rw [hflag]
  omega

/-- A sprite of 33 rows puts out the pixel that its first row has lit. -/
example : (blank.draw 0 0 (List.replicate 33 0x80)).2 = true ∧
    (blank.draw 0 0 (List.replicate 33 0x80)).1.countLit = 31 := by
  decide +kernel

end Screen
end Chip8
