/-
# The views of a screen agree

There are three ways to look at the pixels of a screen, and a number that sums them up.

| view | pixel `(x, y)` is |
| --- | --- |
| `rows` | bit `63 - x` of row `y` |
| `get` | the pixel at `(x, y)`, coordinates going round the screen |
| `pixels` | item `64 * y + x` |
| `countLit` | counted if it is lit |

A pixel's number and its coordinates determine one another (`toXY_bijOn`).  The count goes
over the bits of the rows, from the right, and not over the pixels: that it comes to the
same is an exchange of sums, over a range of numbers cut into equal parts
(`countP_range_mul`), and the reversal of a row (`rowWeight_eq_countP`).
-/

import Chip8.Proofs.LitPixels
import Chip8.Proofs.PictureText
import Mathlib.Data.Set.Function

namespace Chip8
namespace Screen

/-! ## Coordinates -/

/-- The number of the pixel in column `x` and row `y`. -/
def number (p : Nat × Nat) : Nat := width * p.2 + p.1

/-- The pixel at the coordinates of a number has that number. -/
theorem number_toXY (i : Nat) : number (toXY i) = i := Nat.div_add_mod i width

/-- The number of a pixel gives back its coordinates. -/
theorem toXY_number {p : Nat × Nat} (h : p.1 < width) : toXY (number p) = p := by
  obtain ⟨x, y⟩ := p
  simp only [toXY, number, width, Prod.mk.injEq] at h ⊢
  omega

/-- **A pixel's number and its coordinates determine one another.** -/
theorem toXY_bijOn :
    Set.BijOn toXY {i | i < width * height} {p | p.1 < width ∧ p.2 < height} := by
  have hinverse : Set.InvOn number toXY {i | i < width * height}
      {p | p.1 < width ∧ p.2 < height} :=
    ⟨fun i _ => number_toXY i, fun p hp => toXY_number hp.1⟩
  refine hinverse.bijOn (fun i hi => ?_) ?_
  · exact ⟨Nat.mod_lt i (by decide), Nat.div_lt_of_lt_mul hi⟩
  · rintro ⟨x, y⟩ ⟨hx, hy⟩
    show width * y + x < width * height
    simp only [width, height] at hx hy ⊢
    omega

/-! ## Counting -/

/-- What is counted in `n` parts of the same length, is counted part by part. -/
theorem countP_range_mul (p : Nat → Bool) (a n : Nat) :
    (List.range (a * n)).countP p =
      ∑ y ∈ Finset.range n, (List.range a).countP fun x => p (a * y + x) := by
  induction n with
  | zero => rfl
  | succ n ih =>
    rw [Nat.mul_succ, List.range_add, List.countP_append, ih, List.countP_map,
      Finset.sum_range_succ]
    rfl

/-- The bits of a row can be counted from the left as well. -/
theorem rowWeight_eq_countP (row : BitVec 64) :
    rowWeight row = (List.range width).countP fun x => row.getMsbD x := by
  have hreverse : (List.range 64).reverse = (List.range 64).map fun x => 63 - x := by decide
  rw [rowWeight, ← List.countP_reverse, hreverse, List.countP_map]
  refine List.countP_congr fun x hx => ?_
  have hlt : x < 64 := List.mem_range.1 hx
  simp [BitVec.getMsbD_eq_getLsbD, hlt]

/-- A pixel is a bit of its row, counted from the left. -/
theorem get_eq_getMsbD (s : Screen) (x y : Nat) : s.get x y = (s.row y).getMsbD (x % 64) := rfl

/-- The lit pixels of a row of the screen. -/
theorem rowWeight_row (s : Screen) (y : Nat) :
    rowWeight (s.row y) = (List.range width).countP fun x => s.get x y := by
  rw [rowWeight_eq_countP]
  refine List.countP_congr fun x hx => ?_
  have hlt : x < 64 := List.mem_range.1 hx
  rw [get_eq_getMsbD, Nat.mod_eq_of_lt hlt]

/-- The lit pixels can be counted row by row. -/
theorem countLit_eq_sum_row (s : Screen) :
    s.countLit = ∑ y ∈ Finset.range height, rowWeight (s.row y) := by
  have hrow (i : Fin 32) : rowWeight s.rows[i] = rowWeight (s.row i) := by
    refine congrArg (fun j => rowWeight (s.rows.get j)) (Fin.ext ?_)
    exact (Nat.mod_eq_of_lt i.isLt).symm
  rw [countLit_eq_sum, Fintype.sum_congr _ _ hrow]
  exact Fin.sum_univ_eq_sum_range (fun y => rowWeight (s.row y)) 32

/-- **As many pixels are lit as there are bits in the rows.** -/
theorem countLit_eq_count (s : Screen) : s.countLit = s.pixels.count true := by
  rw [countLit_eq_sum_row, pixels, List.count, List.countP_map, countP_range_mul]
  refine Finset.sum_congr rfl fun y _ => ?_
  rw [rowWeight_row]
  refine List.countP_congr fun x hx => ?_
  have hxy : toXY (width * y + x) = (x, y) := toXY_number (p := (x, y)) (List.mem_range.1 hx)
  rw [Function.comp_apply, hxy, beq_true]

/-- **The views of a screen agree.**  For coordinates of any size, the pixel found there is
bit `63 - x` of row `y`, both taken round the screen.  There are `2048` pixels, one after
the other, and pixel `i` is the one found at the coordinates that belong to `i`; each
number below `2048` has coordinates on the screen, and each point of the screen is that of
one number.  And as many pixels are lit as the rows count. -/
theorem views_agree (s : Screen) :
    (∀ x y, s.get x y = (s.row y).getLsbD (63 - x % 64)) ∧
      s.pixels.length = 2048 ∧
      (∀ i < 2048, s.pixels[i]? = some (s.get (toXY i).1 (toXY i).2)) ∧
      Set.BijOn toXY {i | i < 2048} {p | p.1 < 64 ∧ p.2 < 32} ∧
      s.countLit = s.pixels.count true := by
  refine ⟨fun x y => ?_, ?_, fun i hi => ?_, toXY_bijOn, s.countLit_eq_count⟩
  · have hx : x % 64 < 64 := Nat.mod_lt x (by decide)
    rw [get_eq_getMsbD, BitVec.getMsbD_eq_getLsbD, decide_eq_true hx, Bool.true_and]
  · rw [pixels, List.length_map, List.length_range]
    rfl
  · exact (s.getElem?_pixels i _).2 ⟨hi, rfl⟩

end Screen
end Chip8
