/-
# Pictures of the screen

The screen as text, in two ways.

| picture | lines | characters a line | a character shows |
| --- | ---: | ---: | --- |
| `text` | 32 | 64 | one pixel, `#` if lit and `.` if dark |
| `braille` | 9 | 33 | two columns of four pixels |

A line of `text` is a row, shifted to the right until each pixel in turn is the
last one; it ends in a newline.  For `braille` the lit pixels are set on a canvas,
whose lines have newlines between them.  The canvas reaches one cell beyond the
right and the bottom edge of the screen, where there is nothing to show.
-/

import Chip8.Screen.Basic
import Chip8.Text.Canvas

namespace Chip8
namespace Screen

/-- The character of one pixel. -/
def pixelChar (lit : Bool) : Char := if lit then '#' else '.'

/-- A row as text: the leftmost pixel is the last one to be shifted to the right edge. -/
def rowText (row : BitVec 64) : String :=
  String.ofList ((List.range width).reverse.map fun place =>
    pixelChar (row >>> place &&& 1#64 != 0#64))

/-- The screen as rows of `#` and `.`. -/
def text (s : Screen) : String :=
  String.join (s.rows.toList.map fun row => rowText row ++ "\n")

/-- The coordinates of the lit pixels, row after row. -/
def litPixels (s : Screen) : List (Nat × Nat) :=
  (s.pixels.zipIdx.filter fun p => p.1).map fun p => toXY p.2

/-- The screen as a canvas shows it. -/
def picture {σ : Type} (canvas : Text.Canvas σ) (s : Screen) : String :=
  canvas.frame (canvas.draw width height s.litPixels)

/-- The screen as braille cells. -/
def braille (s : Screen) : String := s.picture Text.Sheet.canvas

/-- A one at the place of a pixel singles it out. -/
theorem and_twoPow_ne_zero (row : BitVec 64) {i : Nat} (hi : i < 64) :
    (row &&& BitVec.twoPow 64 i != 0#64) = row.getLsbD i := by
  have hpow : BitVec.twoPow 64 i ≠ 0#64 := by
    intro h
    have hbit : (BitVec.twoPow 64 i).getLsbD i = false := by rw [h, BitVec.getLsbD_zero]
    simp [hi] at hbit
  rw [BitVec.and_twoPow]
  cases row.getLsbD i with
  | true => simp [hpow]
  | false => rfl

/-- A row that is shifted to the right has the bit of that place at its right edge. -/
theorem ushiftRight_and_ne_zero (row : BitVec 64) (i : Nat) :
    (row >>> i &&& 1#64 != 0#64) = row.getLsbD i := by
  have hfirst := and_twoPow_ne_zero (row >>> i) (i := 0) (by decide)
  rwa [BitVec.getLsbD_ushiftRight, Nat.add_zero] at hfirst

/-- A row is shown from its leftmost pixel on. -/
theorem rowText_eq (row : BitVec 64) :
    rowText row = String.ofList ((List.range width).map fun x => pixelChar (row.getMsbD x)) := by
  refine congrArg String.ofList (List.ext_getElem (by simp) fun x hx _ => ?_)
  have hlt : x < 64 := by simpa [width] using hx
  simp [ushiftRight_and_ne_zero, width, BitVec.getMsbD_eq_getLsbD, hlt]

end Screen
end Chip8
