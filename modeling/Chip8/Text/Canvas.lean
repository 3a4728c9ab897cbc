/-
# Canvases

A canvas is a sheet of points, each dark or with its dot set.  It is shown as lines of
braille cells, two columns and four rows of points a character:

| operation | what it does |
| --- | --- |
| `blank` | a canvas of some size, all dark |
| `set` | sets the dot of a point |
| `get` | the dot of a point is set |
| `frame` | the canvas as text |

How the dots are kept is left open; `Canvas.Lawful` says what is asked of the operations.
They are those of a sheet that keeps a pattern of eight dots for each cell (`Sheet`).
-/

import Chip8.Text.Braille

namespace Chip8
namespace Text

/-- Lines of so many characters each. -/
def rectangle (lines columns : Nat) (cell : Nat → Nat → Char) : List String :=
  (List.range lines).map fun line => String.ofList ((List.range columns).map (cell line))

/-- Lines of so many characters each, with newlines between them. -/
def grid (lines columns : Nat) (cell : Nat → Nat → Char) : String :=
  "\n".intercalate (rectangle lines columns cell)

/-- The operations on a sheet of points. -/
structure Canvas (σ : Type) where
  blank : (width height : Nat) → σ
  set : σ → (x y : Nat) → σ
  get : σ → (x y : Nat) → Bool
  frame : σ → String

namespace Canvas

variable {σ : Type} (canvas : Canvas σ)

/-- A canvas on which the dots of some points have been set, one after the other. -/
def draw (width height : Nat) (points : List (Nat × Nat)) : σ :=
  points.foldl (fun c p => canvas.set c p.1 p.2) (canvas.blank width height)

/-- A blank canvas of this size is dark; setting the dot of a point on it sets no other;
and such a canvas is shown as so many lines and columns of cells, each with the dots of
its points. -/
structure Lawful (width height lines columns : Nat) : Prop where
  get_blank : ∀ x y, x < 2 * columns → y < 4 * lines →
    canvas.get (canvas.blank width height) x y = false
  get_set : ∀ c x y px py, x < width → y < height → px < 2 * columns → py < 4 * lines →
    canvas.get (canvas.set c x y) px py = (canvas.get c px py || (px == x && py == y))
  frame_draw : ∀ points, (∀ p ∈ points, p.1 < width ∧ p.2 < height) →
    ∃ cell, canvas.frame (canvas.draw width height points) = grid lines columns cell ∧
      ∀ line column, line < lines → column < columns →
        Braille.Shows (cell line column) fun x y =>
          canvas.get (canvas.draw width height points) (2 * column + x) (4 * line + y)

end Canvas

/-- A sheet of cells, by line and column, for points in so many columns and rows. -/
structure Sheet where
  width : Nat
  height : Nat
  cells : Nat → Nat → BitVec 8

namespace Sheet

/-- A sheet without a dot. -/
def blank (width height : Nat) : Sheet := ⟨width, height, fun _ _ => 0#8⟩

/-- Sets the dot of the point in column `x` and row `y`. -/
def set (s : Sheet) (x y : Nat) : Sheet :=
  let dot := BitVec.twoPow 8 (Braille.dot (x % 2) (y % 4))
  { s with
    cells := fun line column =>
      if line = y / 4 ∧ column = x / 2 then s.cells line column ||| dot
      else s.cells line column }

/-- The dot of the point in column `x` and row `y` is set. -/
def get (s : Sheet) (x y : Nat) : Bool :=
  (s.cells (y / 4) (x / 2)).getLsbD (Braille.dot (x % 2) (y % 4))

/-- The sheet as text.  A cell is to be seen beyond the last one that is full, to the right
and at the bottom. -/
def frame (s : Sheet) : String :=
  grid (s.height / 4 + 1) (s.width / 2 + 1) fun line column =>
    Braille.ofPattern (s.cells line column)

/-- Sheets as canvases. -/
def canvas : Canvas Sheet := ⟨blank, set, get, frame⟩

/-- **A dot is set for its own point and no other.** -/
theorem get_set (s : Sheet) (x y px py : Nat) :
    (s.set x y).get px py = (s.get px py || (px == x && py == y)) := by
  have hlt : Braille.dot (x % 2) (y % 4) < 8 := Braille.dot_lt (Nat.mod_lt _ (by decide))
  unfold get set
  dsimp only
  split
  · rename_i hcell
    have hdot : Braille.dot (x % 2) (y % 4) = Braille.dot (px % 2) (py % 4) ↔ px = x ∧ py = y := by
      rw [Braille.dot_inj (by omega) (by omega) (by omega) (by omega)]
      omega
    rw [BitVec.getLsbD_or, BitVec.getLsbD_twoPow, decide_eq_true hlt, Bool.true_and,
      decide_eq_decide.2 hdot, Bool.decide_and]
    rfl
  · rename_i hcell
    have hother : (px == x && py == y) = false := by
      simp only [Bool.and_eq_false_iff, beq_eq_false_iff_ne]
      omega
    rw [hother, Bool.or_false]

/-- Setting dots leaves the size of a sheet as it is. -/
theorem size_draw (width height : Nat) (points : List (Nat × Nat)) :
    (canvas.draw width height points).width = width ∧
      (canvas.draw width height points).height = height := by
  unfold Canvas.draw
  refine List.foldlRecOn (motive := fun s : Sheet => s.width = width ∧ s.height = height)
    points _ ⟨rfl, rfl⟩ fun s hs p _ => hs

/-- **Sheets are lawful canvases.** -/
theorem canvas_lawful (width height : Nat) :
    canvas.Lawful width height (height / 4 + 1) (width / 2 + 1) where
  get_blank _ _ _ _ := BitVec.getLsbD_zero
  get_set s x y px py _ _ _ _ := s.get_set x y px py
  frame_draw points _ := by
    let s := canvas.draw width height points
    obtain ⟨hwidth, hheight⟩ : s.width = width ∧ s.height = height := size_draw width height points
    refine ⟨fun line column => Braille.ofPattern (s.cells line column), ?_,
      fun line column _ _ => ?_⟩
    · show s.frame = _
      rw [frame, hwidth, hheight]
    · refine (Braille.ofPattern_shows (s.cells line column)).congr fun x y hx hy => ?_
      show _ = s.get (2 * column + x) (4 * line + y)
      rw [get, show (4 * line + y) / 4 = line by omega,
        show (2 * column + x) / 2 = column by omega, show (2 * column + x) % 2 = x by omega,
        show (4 * line + y) % 4 = y by omega]

end Sheet
end Text
end Chip8
