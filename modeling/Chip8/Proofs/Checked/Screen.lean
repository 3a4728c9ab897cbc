/-
# The screen, checked

The operations on the screen as a machine with words of 64 bits does them.  A row is
found by its number; the pixel in column `x` is singled out by shifting a one to the
left by `64 - 1 - x`, and a row of a sprite by shifting its byte to the left edge and
rotating it from there.

| operation | stays in bounds because |
| --- | --- |
| the row of a pixel, of a line of a sprite | its number is reduced to the height |
| the shift to a column | its number is reduced to the width |
| the number of a line | a sprite is no longer than half of all numbers |
| the count of lit pixels | a row has at most 64 |
-/

import Chip8.Proofs.Checked.Operation
import Chip8.Screen.Picture

namespace Chip8
namespace Screen

/-- The pixel in column `x` and row `y` is lit. -/
def checkedGet (s : Screen) (x y : Nat) : Checked Bool := do
  let row ← Checked.get s.rows (y % height)
  let last ← Checked.sub UInt64.size width 1
  let place ← Checked.sub UInt64.size last (x % width)
  let amount ← Checked.shift place 64
  return row &&& (1#64 <<< amount) != 0#64

/-- Draws the lines of a sprite from number `line` on, the first line of the sprite in
row `y`, after lines that turned a pixel off or not. -/
def checkedDrawFrom (s : Screen) (hit : Bool) (x y line : Nat) :
    List UInt8 → Checked (Screen × Bool)
  | [] => return (s, hit)
  | b :: bs => do
    let place ← Checked.add UInt64.size y line
    let row ← Checked.get s.rows (place % height)
    let edge ← Checked.sub UInt64.size width 8
    let amount ← Checked.shift edge 64
    let bits := (b.toBitVec.setWidth 64 <<< amount).rotateRight x
    let rows ← Checked.set s.rows (place % height) (row ^^^ bits)
    checkedDrawFrom ⟨rows⟩ (hit || row &&& bits != 0#64) x y (line + 1) bs

/-- Draws a sprite with its top left corner at `(x, y)` and tells whether a lit pixel
was turned off. -/
def checkedDraw (s : Screen) (x y : Nat) (sprite : List UInt8) : Checked (Screen × Bool) :=
  s.checkedDrawFrom false (x % width) (y % height) 0 sprite

/-- The pixels, row after row. -/
def checkedPixels (s : Screen) : Checked (List Bool) := do
  let n ← Checked.mul UInt64.size width height
  (List.range n).mapM fun i => s.checkedGet (toXY i).1 (toXY i).2

/-- The number of lit pixels. -/
def checkedCountLit (s : Screen) : Checked Nat :=
  s.rows.toList.foldlM (fun n row => Checked.add UInt64.size n (rowWeight row)) 0

/-- A row as text: the leftmost pixel is the last one to be shifted to the right edge. -/
def checkedRowText (row : BitVec 64) : Checked String := do
  let chars ← (List.range width).reverse.mapM fun place => do
    let amount ← Checked.shift place 64
    return pixelChar (row >>> amount &&& 1#64 != 0#64)
  return String.ofList chars

/-- The screen as rows of `#` and `.`. -/
def checkedText (s : Screen) : Checked String := do
  let lines ← s.rows.toList.mapM fun row => do
    return (← checkedRowText row) ++ "\n"
  return String.join lines

section Ok

variable (s : Screen)

/-- A column that is taken modulo the width lies on the screen. -/
theorem mod_width_lt (x : Nat) : x % width < 64 := Nat.mod_lt x (by decide)

/-- A row that is taken modulo the height lies on the screen. -/
theorem mod_height_lt (y : Nat) : y % height < 32 := Nat.mod_lt y (by decide)

/-- The mask of a column singles out the pixel of that column, from the left. -/
theorem and_shiftLeft_ne_zero (row : BitVec 64) {x : Nat} (hx : x < 64) :
    (row &&& (1#64 <<< (63 - x)) != 0#64) = row.getMsbD x := by
  have hpick := and_twoPow_ne_zero row (i := 63 - x) (by omega)
  rw [BitVec.getMsbD_eq_getLsbD, decide_eq_true hx, Bool.true_and]
  exact hpick

/-- A byte shifted to the left edge of a row has the dark rest of the row behind it. -/
theorem setWidth_shiftLeft (b : BitVec 8) : b.setWidth 64 <<< 56 = b ++ 0#56 := by
  refine BitVec.eq_of_getLsbD_eq fun i hi => ?_
  rw [BitVec.getLsbD_shiftLeft, BitVec.getLsbD_append, BitVec.getLsbD_setWidth, decide_eq_true hi]
  by_cases hlow : i < 56
  · simp [hlow]
  · have hbit : i - 56 < 64 := by omega
    simp [hlow, hbit]

/-- Any two coordinates name a pixel, without a refusal. -/
theorem checkedGet_eq (x y : Nat) : s.checkedGet x y = .ok (s.get x y) := by
  have hx : x % width < 64 := mod_width_lt x
  have hlast : Checked.sub UInt64.size width 1 = .ok 63 := Checked.sub_of_le (by decide)
  have hplace : Checked.sub UInt64.size 63 (x % width) = .ok (63 - x % width) :=
    Checked.sub_of_le (by omega)
  have hamount : Checked.shift (63 - x % width) 64 = .ok (63 - x % width) :=
    Checked.shift_of_lt (by omega)
  simp only [checkedGet, Checked.get_of_lt (mod_height_lt y), hlast, hplace, hamount,
    Checked.ok_bind, and_shiftLeft_ne_zero _ hx]
  rfl

/-- **Drawing is refused nowhere** as long as the lines of the sprite can be numbered.  The
row is reduced before the lines are counted, and the sum is reduced again. -/
theorem checkedDrawFrom_eq {hit : Bool} {x y line : Nat} {sprite : List UInt8}
    (hlines : y % height + line + sprite.length ≤ UInt64.size) :
    s.checkedDrawFrom hit (x % width) (y % height) line sprite =
      .ok (s.drawFrom hit x (y + line) sprite) := by
  induction sprite generalizing s hit line with
  | nil => rfl
  | cons b bs ih =>
    rw [List.length_cons] at hlines
    have hadd : Checked.add UInt64.size (y % height) line = .ok (y % height + line) :=
      Checked.add_of_lt (by omega)
    have hmod : (y % height + line) % height = (y + line) % height := Nat.mod_add_mod ..
    have hedge : Checked.sub UInt64.size width 8 = .ok 56 := Checked.sub_of_le (by decide)
    have hamount : Checked.shift 56 64 = .ok 56 := Checked.shift_of_lt (by decide)
    have hbits : (b.toBitVec.setWidth 64 <<< 56).rotateRight (x % width) = spriteRow x b := by
      rw [setWidth_shiftLeft]
      exact BitVec.rotateRight_mod_eq_rotateRight
    simp only [checkedDrawFrom, hadd, hmod, Checked.get_of_lt (mod_height_lt (y + line)),
      Checked.set_of_lt (mod_height_lt (y + line)), hedge, hamount, Checked.ok_bind, hbits]
    exact ih _ (by omega)

/-- A sprite of any length that a list of bytes can have in 64 bits. -/
theorem checkedDraw_eq (x y : Nat) {sprite : List UInt8}
    (hlen : sprite.length < 0x8000000000000000) :
    s.checkedDraw x y sprite = .ok (s.draw x y sprite) := by
  have hy : y % height < 32 := mod_height_lt y
  refine s.checkedDrawFrom_eq ?_
  simp only [UInt64.size]
  omega

/-- The pixels are listed without a refusal. -/
theorem checkedPixels_eq : s.checkedPixels = .ok s.pixels := by
  have hcount : Checked.mul UInt64.size width height = .ok (width * height) :=
    Checked.mul_of_lt (by decide)
  rw [checkedPixels, hcount, Checked.ok_bind]
  exact Checked.mapM_ok fun i _ => s.checkedGet_eq ..

/-- A row has no more lit pixels than columns. -/
theorem rowWeight_le (row : BitVec 64) : rowWeight row ≤ 64 := by
  have hcount := (List.range 64).countP_le_length (p := fun i => row.getLsbD i)
  rwa [List.length_range] at hcount

/-- Rows are counted without overflow as long as there is room for all of their pixels. -/
theorem foldlM_rowWeight {rows : List (BitVec 64)} {n : Nat}
    (hroom : n + 64 * rows.length < UInt64.size) :
    rows.foldlM (fun n row => Checked.add UInt64.size n (rowWeight row)) n =
      .ok (rows.foldl (fun n row => n + rowWeight row) n) := by
  induction rows generalizing n with
  | nil => rfl
  | cons row rows ih =>
    rw [List.length_cons] at hroom
    have hrow : rowWeight row ≤ 64 := rowWeight_le row
    rw [List.foldlM_cons, Checked.add_of_lt (by omega), Checked.ok_bind, List.foldl_cons]
    exact ih (by omega)

/-- The lit pixels are counted without a refusal. -/
theorem checkedCountLit_eq : s.checkedCountLit = .ok s.countLit := by
  have hroom : 0 + 64 * s.rows.toList.length < UInt64.size := by
    rw [Vector.length_toList]
    decide
  rw [checkedCountLit, foldlM_rowWeight hroom, Vector.foldl_toList]
  rfl

/-- A row becomes text without a refusal: it is shifted by less than its width. -/
theorem checkedRowText_eq (row : BitVec 64) : checkedRowText row = .ok (rowText row) := by
  have hchar : ∀ i ∈ (List.range width).reverse,
      (do
        let amount ← Checked.shift i 64
        return pixelChar (row >>> amount &&& 1#64 != 0#64) : Checked Char) =
        .ok (pixelChar (row >>> i &&& 1#64 != 0#64)) := by
    intro i hi
    have hlt : i < 64 := List.mem_range.1 (List.mem_reverse.1 hi)
    rw [Checked.shift_of_lt hlt, Checked.ok_bind]
    rfl
  rw [checkedRowText, Checked.mapM_ok hchar]
  rfl

/-- A screen becomes text without a refusal. -/
theorem checkedText_eq : s.checkedText = .ok s.text := by
  have hline : ∀ row ∈ s.rows.toList,
      (do return (← checkedRowText row) ++ "\n" : Checked String) = .ok (rowText row ++ "\n") := by
    intro row _
    rw [checkedRowText_eq]
    rfl
  rw [checkedText, Checked.mapM_ok hline]
  rfl

end Ok

end Screen
end Chip8
