/-
# Reading a picture of the screen back

Both pictures of the screen are lines of equally many characters, so a character is found
by its line and column.  What it tells:

| picture | line | column | character |
| --- | --- | --- | --- |
| `text` | `y` | `x` | `#` if the pixel `(x, y)` is lit |
| `picture` | `y / 4` | `x / 2` | has the dot of `(x % 2, y % 4)` if the pixel is lit |

The one is made row by row, from the bits of a row (`lines_text`).  The other is made
from the list of all lit pixels, whose dots are set one by one on a canvas; a dot is set
in the end exactly if its point is in the list (`get_draw`), and the list has exactly the
points that are found lit (`mem_litPixels`).  So the screen can be read from either
(`ofText_eq`, `ofBraille_eq`), and two screens with the same picture are the same.

Of the canvas nothing is used but that it is lawful.
-/

import Chip8.Proofs.Sprites
import Chip8.Proofs.TextLines
import Chip8.Screen.Picture

namespace Chip8
namespace Text

/-! ## Lines of equally many characters -/

section Rectangle

variable {m n : Nat} {cell : Nat → Nat → Char}

/-- A rectangle has as many lines as it says. -/
theorem length_rectangle : (rectangle m n cell).length = m := by
  rw [rectangle, List.length_map, List.length_range]

/-- Each line of a rectangle has as many characters as it says. -/
theorem length_of_mem_rectangle {line : String} (h : line ∈ rectangle m n cell) :
    line.length = n := by
  obtain ⟨l, -, rfl⟩ := List.mem_map.1 h
  rw [String.length_ofList, List.length_map, List.length_range]

/-- If no cell of a rectangle is a newline, no line breaks. -/
theorem notMem_newline_rectangle (hcell : ∀ l c, l < m → c < n → cell l c ≠ '\n')
    {line : String} (h : line ∈ rectangle m n cell) : '\n' ∉ line.toList := by
  obtain ⟨l, hl, rfl⟩ := List.mem_map.1 h
  rw [String.toList_ofList]
  intro hmem
  obtain ⟨c, hc, heq⟩ := List.mem_map.1 hmem
  exact hcell l c (List.mem_range.1 hl) (List.mem_range.1 hc) heq

/-- A character of a text of such lines is found by its line and column. -/
theorem charAt?_rectangle {text : String} {l c : Nat} (h : lines text = rectangle m n cell)
    (hl : l < m) (hc : c < n) : charAt? text l c = some (cell l c) := by
  rw [charAt?, h, rectangle, List.getElem?_map, List.getElem?_range hl, Option.map_some,
    Option.bind_some, String.toList_ofList, List.getElem?_map, List.getElem?_range hc,
    Option.map_some]

/-- **A grid of characters has its lines,** if it has a character in the last of them. -/
theorem lines_grid (hcell : ∀ l c, l < m → c < n → cell l c ≠ '\n') (hm : 0 < m)
    (hn : 0 < n) : lines (grid m n cell) = rectangle m n cell := by
  obtain ⟨k, rfl⟩ := Nat.exists_eq_add_one_of_ne_zero hm.ne'
  let last := String.ofList ((List.range n).map (cell k))
  have hsplit : rectangle (k + 1) n cell = rectangle k n cell ++ [last] := by
    rw [rectangle, List.range_succ, List.map_append]
    rfl
  have hlast : last ≠ "" := by
    intro h
    have hlength : last.length = 0 := by rw [h]; rfl
    rw [String.length_ofList, List.length_map, List.length_range] at hlength
    omega
  have hread : ∀ l ∈ rectangle (k + 1) n cell, '\n' ∉ l.toList := fun l hl =>
    notMem_newline_rectangle hcell hl
  rw [grid, hsplit]
  rw [hsplit] at hread
  exact lines_intercalate hread hlast String.toList_intercalate

end Rectangle

/-! ## Points on a canvas -/

namespace Canvas

variable {σ : Type} {canvas : Canvas σ} {width height lines columns : Nat}

/-- Setting dots one after the other adds their points to those that have one. -/
theorem Lawful.get_foldl_set (hc : canvas.Lawful width height lines columns)
    {points : List (Nat × Nat)} (hp : ∀ p ∈ points, p.1 < width ∧ p.2 < height) {x y : Nat}
    (hx : x < 2 * columns) (hy : y < 4 * lines) (c : σ) :
    canvas.get (points.foldl (fun c p => canvas.set c p.1 p.2) c) x y =
      (canvas.get c x y || decide ((x, y) ∈ points)) := by
  induction points generalizing c with
  | nil => simp
  | cons p points ih =>
    obtain ⟨hpx, hpy⟩ := hp p List.mem_cons_self
    have hset := hc.get_set c p.1 p.2 x y hpx hpy hx hy
    have hsame : (x == p.1 && y == p.2) = decide ((x, y) = p) := by
      rw [Bool.eq_iff_iff, Bool.and_eq_true, beq_iff_eq, beq_iff_eq, decide_eq_true_iff,
        Prod.ext_iff]
    rw [List.foldl_cons, ih fun q hq => hp q (List.mem_cons_of_mem _ hq), hset, hsame,
      Bool.or_assoc, ← Bool.decide_or, decide_eq_decide.2 List.mem_cons.symm]

/-- **A dot is set in the end exactly if its point was drawn.** -/
theorem Lawful.get_draw (hc : canvas.Lawful width height lines columns)
    {points : List (Nat × Nat)} (hp : ∀ p ∈ points, p.1 < width ∧ p.2 < height) {x y : Nat}
    (hx : x < 2 * columns) (hy : y < 4 * lines) :
    canvas.get (canvas.draw width height points) x y = decide ((x, y) ∈ points) := by
  rw [draw, hc.get_foldl_set hp hx hy, hc.get_blank x y hx hy, Bool.false_or]

end Canvas
end Text

namespace Screen

/-! ## The lit pixels -/

/-- The pixel with a number is that of its coordinates, as long as there are as many. -/
theorem getElem?_pixels (s : Screen) (i : Nat) (lit : Bool) :
    s.pixels[i]? = some lit ↔ i < width * height ∧ s.get (toXY i).1 (toXY i).2 = lit := by
  rw [pixels, List.getElem?_map, Option.map_eq_some_iff]
  constructor
  · rintro ⟨j, hj, hlit⟩
    obtain ⟨hi, rfl⟩ := List.getElem?_eq_some_iff.1 hj
    rw [List.length_range] at hi
    rw [List.getElem_range] at hlit
    exact ⟨hi, hlit⟩
  · rintro ⟨hi, hlit⟩
    exact ⟨i, List.getElem?_range hi, hlit⟩

/-- **The lit pixels are the points of the screen that are found lit.** -/
theorem mem_litPixels (s : Screen) {x y : Nat} :
    (x, y) ∈ s.litPixels ↔ x < width ∧ y < height ∧ s.get x y = true := by
  unfold litPixels
  constructor
  · intro h
    obtain ⟨⟨lit, i⟩, hmem, hxy⟩ := List.mem_map.1 h
    obtain ⟨hmem, rfl⟩ := List.mem_filter.1 hmem
    obtain ⟨hi, hlit⟩ := (s.getElem?_pixels i _).1 (List.mk_mem_zipIdx_iff_getElem?.1 hmem)
    obtain ⟨rfl, rfl⟩ := Prod.mk.inj hxy
    exact ⟨Nat.mod_lt _ (by decide), Nat.div_lt_of_lt_mul hi, hlit⟩
  · rintro ⟨hx, hy, hlit⟩
    have hxy : toXY (width * y + x) = (x, y) := by
      simp only [toXY, Prod.mk.injEq, width] at hx ⊢
      omega
    have hi : width * y + x < width * height := by
      simp only [width, height] at hx hy ⊢
      omega
    have hpixel : s.pixels[width * y + x]? = some true :=
      (s.getElem?_pixels _ _).2 ⟨hi, by rw [hxy, hlit]⟩
    exact List.mem_map.2 ⟨(true, width * y + x),
      List.mem_filter.2 ⟨List.mk_mem_zipIdx_iff_getElem?.2 hpixel, rfl⟩, hxy⟩

/-! ## Reading a screen -/

/-- The screen with these pixels. -/
def ofPixels (lit : Nat → Nat → Bool) : Screen :=
  ⟨Vector.ofFn fun y : Fin 32 =>
    (BitVec.ofBoolListBE ((List.range 64).map fun x => lit x y)).cast (by simp)⟩

/-- A screen that is made of pixels has them. -/
theorem get_ofPixels (lit : Nat → Nat → Bool) {x y : Nat} (hx : x < 64) (hy : y < 32) :
    (ofPixels lit).get x y = lit x y := by
  simp [get, ofPixels, Nat.mod_eq_of_lt hx, Nat.mod_eq_of_lt hy, hx]

/-- The screen is read off a function that has its pixels. -/
theorem ofPixels_eq {s : Screen} {lit : Nat → Nat → Bool}
    (h : ∀ x y, x < 64 → y < 32 → lit x y = s.get x y) : ofPixels lit = s := by
  refine eq_of_get_eq fun x y => ?_
  have hx : x % 64 < 64 := Nat.mod_lt x (by decide)
  have hy : y % 32 < 32 := Nat.mod_lt y (by decide)
  rw [← get_mod, get_ofPixels lit hx hy, h _ _ hx hy, get_mod]

/-- Reads a screen from rows of `#` and `.`. -/
def ofText (t : String) : Screen :=
  ofPixels fun x y => Text.charAt? t y x == some '#'

/-- Reads a screen from braille cells. -/
def ofBraille (t : String) : Screen :=
  ofPixels fun x y =>
    (Text.charAt? t (y / 4) (x / 2)).any fun c => Text.Braille.hasDot c (x % 2) (y % 4)

/-- The text is 32 lines of 64 characters, each ended by a newline, with a character for
each pixel. -/
structure IsText (s : Screen) (t : String) : Prop where
  lines : (Text.lines t).length = 32
  columns : ∀ line ∈ Text.lines t, line.length = 64
  ended : t = String.join ((Text.lines t).map (· ++ "\n"))
  pixel : ∀ r c, r < 32 → c < 64 → Text.charAt? t r c = some (if s.get c r then '#' else '.')

/-- The text is 9 lines of 33 cells, with newlines between them and a dot for each lit
pixel. -/
structure IsBraille (s : Screen) (t : String) : Prop where
  lines : (Text.lines t).length = 9
  columns : ∀ line ∈ Text.lines t, line.length = 33
  joined : t = "\n".intercalate (Text.lines t)
  pixel : ∀ x y, x < 64 → y < 32 → ∃ c, Text.charAt? t (y / 4) (x / 2) = some c ∧
    Text.Braille.hasDot c (x % 2) (y % 4) = s.get x y
  dark : ∀ line column, line < 9 → column < 33 →
    (∀ x y, x < 64 → y < 32 → x / 2 = column → y / 4 = line → s.get x y = false) →
    Text.charAt? t line column = some ' '
  lastLine : ∀ column, column < 33 → Text.charAt? t 8 column = some ' '
  lastColumn : ∀ line, line < 9 → Text.charAt? t line 32 = some ' '

/-- **A screen is read back from its rows.** -/
theorem ofText_eq {s : Screen} {t : String} (h : IsText s t) : ofText t = s := by
  refine ofPixels_eq fun x y hx hy => ?_
  rw [h.pixel y x hy hx]
  cases s.get x y <;> rfl

/-- **A screen is read back from its cells.** -/
theorem ofBraille_eq {s : Screen} {t : String} (h : IsBraille s t) : ofBraille t = s := by
  refine ofPixels_eq fun x y hx hy => ?_
  obtain ⟨c, hc, hdot⟩ := h.pixel x y hx hy
  rw [hc, Option.any_some, hdot]

/-- A row as text has a character for each of its pixels. -/
theorem rows_eq_rectangle (s : Screen) :
    s.rows.toList.map rowText = Text.rectangle 32 64 fun r c => pixelChar (s.get c r) := by
  refine List.ext_getElem (by simp [Text.rectangle]) fun r hr _ => ?_
  have hrow : r < 32 := by simpa using hr
  rw [List.getElem_map, rowText_eq]
  simp only [Text.rectangle, List.getElem_map, List.getElem_range]
  refine congrArg String.ofList (List.map_congr_left fun c hc => ?_)
  have hcol : c < 64 := List.mem_range.1 hc
  simp [get, Nat.mod_eq_of_lt hrow, Nat.mod_eq_of_lt hcol]

/-- A pixel is not shown as a newline. -/
theorem pixelChar_ne_newline (lit : Bool) : pixelChar lit ≠ '\n' := by
  cases lit <;> decide

/-- **The lines of the text are the rows of the screen.** -/
theorem lines_text (s : Screen) :
    Text.lines s.text = Text.rectangle 32 64 fun r c => pixelChar (s.get c r) := by
  rw [← rows_eq_rectangle]
  refine Text.lines_eq (fun line hline => ?_) ?_
  · rw [rows_eq_rectangle] at hline
    exact Text.notMem_newline_rectangle (fun _ _ _ _ => pixelChar_ne_newline _) hline
  · rw [text, String.toList_join, List.flatMap_map, List.flatMap_map, List.flatMap_map]
    simp only [String.toList_append]
    rfl

/-- **The text of a screen shows it, a character for each pixel.** -/
theorem text_isText (s : Screen) : IsText s s.text where
  lines := by rw [lines_text, Text.length_rectangle]
  columns line hline := Text.length_of_mem_rectangle (by rwa [lines_text] at hline)
  ended := by
    rw [lines_text, ← rows_eq_rectangle, List.map_map]
    rfl
  pixel r c hr hc := Text.charAt?_rectangle s.lines_text hr hc

variable {σ : Type} {canvas : Text.Canvas σ}

/-- The cells in which a canvas shows the lit pixels. -/
theorem exists_cells (hc : canvas.Lawful width height 9 33) (s : Screen) :
    ∃ cell, s.picture canvas = Text.grid 9 33 cell ∧
      ∀ line column, line < 9 → column < 33 →
        Text.Braille.Shows (cell line column) fun x y =>
          decide ((2 * column + x, 4 * line + y) ∈ s.litPixels) := by
  have hinside : ∀ p ∈ s.litPixels, p.1 < width ∧ p.2 < height := by
    intro p hp
    obtain ⟨hx, hy, -⟩ := s.mem_litPixels.1 hp
    exact ⟨hx, hy⟩
  obtain ⟨cell, hframe, hcell⟩ := hc.frame_draw s.litPixels hinside
  refine ⟨cell, hframe, fun line column hl hcol => ?_⟩
  exact (hcell line column hl hcol).congr fun x y hx hy =>
    hc.get_draw hinside (by omega) (by omega)

/-- **What a canvas shows has a dot for each lit pixel,** and is blank elsewhere.  A cell
that begins beyond the edge of the screen has none of its pixels. -/
theorem picture_isBraille (hc : canvas.Lawful width height 9 33) (s : Screen) :
    IsBraille s (s.picture canvas) := by
  obtain ⟨cell, hgrid, hcell⟩ := exists_cells hc s
  have hlines : Text.lines (s.picture canvas) = Text.rectangle 9 33 cell := by
    rw [hgrid]
    exact Text.lines_grid (fun line column hl hcol => (hcell line column hl hcol).ne_newline)
      (by decide) (by decide)
  have hdark : ∀ line column, line < 9 → column < 33 →
      (∀ x y, x < 64 → y < 32 → x / 2 = column → y / 4 = line → s.get x y = false) →
      Text.charAt? (s.picture canvas) line column = some ' ' := by
    intro line column hl hcol hnone
    rw [Text.charAt?_rectangle hlines hl hcol]
    refine congrArg some ((hcell line column hl hcol).space fun x y hx hy => ?_)
    rw [decide_eq_false_iff_not, mem_litPixels]
    rintro ⟨hpx, hpy, hlit⟩
    have hget := hnone _ _ hpx hpy (by omega) (by omega)
    rw [hlit] at hget
    cases hget
  constructor
  case lines => rw [hlines, Text.length_rectangle]
  case columns => exact fun line hline => Text.length_of_mem_rectangle (by rwa [hlines] at hline)
  case joined => rw [hlines]; exact hgrid
  case pixel =>
    intro x y hx hy
    have hl : y / 4 < 9 := by omega
    have hcol : x / 2 < 33 := by omega
    refine ⟨cell (y / 4) (x / 2), Text.charAt?_rectangle hlines hl hcol, ?_⟩
    rw [(hcell _ _ hl hcol).hasDot _ _ (Nat.mod_lt x (by decide)) (Nat.mod_lt y (by decide)),
      Nat.div_add_mod, Nat.div_add_mod, Bool.eq_iff_iff, decide_eq_true_iff, mem_litPixels]
    exact ⟨fun h => h.2.2, fun hlit => ⟨hx, hy, hlit⟩⟩
  case dark => exact hdark
  case lastLine =>
    intro column hcol
    exact hdark 8 column (by decide) hcol fun x y _ hy _ hl => by omega
  case lastColumn =>
    intro line hl
    exact hdark line 32 hl (by decide) fun x y hx _ hcol _ => by omega

/-- **The pictures of the screen lose nothing.**  The rows of `#` and `.` have a character
for each pixel; the cells that a lawful canvas shows have a dot for each lit pixel, and the
last line and column of them are blank.  Either gives back the screen, so two screens look
alike in one of them only if they are the same. -/
theorem pictures_lossless (hc : canvas.Lawful width height 9 33) :
    (∀ s : Screen, IsText s s.text ∧ IsBraille s (s.picture canvas)) ∧
      (∀ s : Screen, ofText s.text = s ∧ ofBraille (s.picture canvas) = s) ∧
      ∀ s t : Screen, (s.text = t.text ↔ s = t) ∧
        (s.picture canvas = t.picture canvas ↔ s = t) := by
  have htext : ∀ s : Screen, ofText s.text = s := fun s => ofText_eq s.text_isText
  have hbraille : ∀ s : Screen, ofBraille (s.picture canvas) = s := fun s =>
    ofBraille_eq (picture_isBraille hc s)
  refine ⟨fun s => ⟨s.text_isText, picture_isBraille hc s⟩, fun s => ⟨htext s, hbraille s⟩,
    fun s t => ⟨⟨fun h => ?_, congrArg text⟩, ⟨fun h => ?_, congrArg (picture canvas)⟩⟩⟩
  · rw [← htext s, h, htext]
  · rw [← hbraille s, h, hbraille]

/-- A pixel in the last corner of the screen: the last character of the last row, the last
dot of its cell, and nothing in the line of cells below. -/
theorem pictures_lossless_lastCorner :
    let s := (blank.draw 63 31 [0x80]).1
    Text.Sheet.canvas.Lawful width height 9 33 ∧
      Text.charAt? s.text 31 63 = some '#' ∧
      (∃ c, Text.charAt? s.braille 7 31 = some c ∧ Text.Braille.hasDot c 1 3 = true) ∧
      Text.charAt? s.braille 8 31 = some ' ' ∧
      ofText s.text = s ∧ ofBraille s.braille = s ∧ s.braille ≠ blank.braille := by
  intro s
  have hc : Text.Sheet.canvas.Lawful width height 9 33 := Text.Sheet.canvas_lawful width height
  obtain ⟨hforms, hread, hsame⟩ := pictures_lossless hc
  obtain ⟨htext, hcells⟩ := hforms s
  have hlit : s.get 63 31 = true := by decide
  have hpixel := htext.pixel 31 63 (by decide) (by decide)
  have hdot := hcells.pixel 63 31 (by decide) (by decide)
  rw [hlit] at hpixel hdot
  refine ⟨hc, hpixel, hdot, hcells.lastLine 31 (by decide), (hread s).1, (hread s).2, fun h => ?_⟩
  have hblank : s = blank := (hsame s blank).2.1 h
  rw [hblank, get_blank] at hlit
  cases hlit

end Screen
end Chip8
