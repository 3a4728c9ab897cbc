/-
# The screen

The screen is 64 columns wide and 32 rows high.  A row is a word of 64 bits with
the leftmost pixel in the top bit, so pixel `(x, y)` is bit `x` of row `y`
counted from the top.  Columns and rows wrap: every pair of coordinates names a
pixel.

A sprite is a list of bytes, one a row, eight pixels wide.  Drawing inverts the
pixels that the sprite sets; a row of the sprite is the byte at the left edge of
a dark row, rotated to its column.
-/

namespace Chip8

/-- A screen of 64 columns and 32 rows. -/
structure Screen where
  rows : Vector (BitVec 64) 32
  deriving DecidableEq

namespace Screen

/-- The number of columns. -/
def width : Nat := 64

/-- The number of rows. -/
def height : Nat := 32

/-- All pixels are dark. -/
def blank : Screen := ⟨.replicate 32 0#64⟩

/-- The pixel in column `x` and row `y` is lit. -/
def get (s : Screen) (x y : Nat) : Bool := (s.rows[y % 32]).getMsbD (x % 64)

/-- A row that is dark but for a byte whose left end is in column `x`. -/
def spriteRow (x : Nat) (byte : UInt8) : BitVec 64 := (byte.toBitVec ++ 0#56).rotateRight x

/-- Inverts, in row `y`, the pixels that `bits` sets. -/
def flip (s : Screen) (y : Nat) (bits : BitVec 64) : Screen :=
  ⟨s.rows.set (y % 32) (s.rows[y % 32] ^^^ bits)⟩

/-- Some pixel of row `y` that `bits` sets is lit. -/
def overlaps (s : Screen) (y : Nat) (bits : BitVec 64) : Bool := s.rows[y % 32] &&& bits != 0#64

/-- Draws the rows of a sprite from row `y` down, after rows that turned a pixel
off or not. -/
def drawFrom (s : Screen) (hit : Bool) (x y : Nat) : List UInt8 → Screen × Bool
  | [] => (s, hit)
  | b :: bs =>
    drawFrom (s.flip y (spriteRow x b)) (hit || s.overlaps y (spriteRow x b)) x (y + 1) bs

/-- Draws a sprite with its top left corner at `(x, y)` and tells whether a lit
pixel was turned off. -/
def draw (s : Screen) (x y : Nat) (sprite : List UInt8) : Screen × Bool :=
  s.drawFrom false x y sprite

/-- The coordinates of a pixel by its number, counted along the rows. -/
def toXY (i : Nat) : Nat × Nat := (i % width, i / width)

/-- The pixels, row after row. -/
def pixels (s : Screen) : List Bool :=
  (List.range (width * height)).map fun i => s.get (toXY i).1 (toXY i).2

/-- The number of bits that are set in a row. -/
def rowWeight (row : BitVec 64) : Nat := (List.range 64).countP fun i => row.getLsbD i

/-- The number of lit pixels. -/
def countLit (s : Screen) : Nat := s.rows.foldl (fun n row => n + rowWeight row) 0

/-- Every pixel of a blank screen is dark. -/
theorem get_blank (x y : Nat) : blank.get x y = false := by
  simp [get, blank]

/-- Coordinates wrap. -/
theorem get_mod (s : Screen) (x y : Nat) : s.get (x % 64) (y % 32) = s.get x y := by
  simp [get]

/-- Inverting pixels of a row changes that row and no other. -/
theorem get_flip (s : Screen) (y : Nat) (bits : BitVec 64) (px py : Nat) :
    (s.flip y bits).get px py =
      if y % 32 = py % 32 then s.get px py ^^ bits.getMsbD (px % 64) else s.get px py := by
  have hx : px % 64 < 64 := Nat.mod_lt _ (by decide)
  simp only [get, flip, Vector.getElem_set]
  split
  · rename_i h
    simp only [h, BitVec.getMsbD_xor]
  · rfl

/-- Pixel `c` of a sprite's row is the bit of its byte that is as far from the
left as `c` is from column `x`, going round the screen. -/
theorem getMsbD_spriteRow (x : Nat) (byte : UInt8) {c : Nat} (hc : c < 64) :
    (spriteRow x byte).getMsbD c = byte.toBitVec.getMsbD ((c + 64 - x % 64) % 64) := by
  have hx : x % 64 < 64 := Nat.mod_lt _ (by decide)
  have key (k : Nat) : (byte.toBitVec ++ 0#56).getMsbD k = byte.toBitVec.getMsbD k := by
    rw [BitVec.getMsbD_append]
    by_cases h : 8 ≤ k
    · simp [h, BitVec.getMsbD_of_ge]
    · simp [h]
  unfold spriteRow
  rw [BitVec.getMsbD_rotateRight]
  simp only [hc, decide_true, Bool.true_and]
  split
  · rw [key]
    congr 1
    omega
  · rw [key]
    congr 1
    omega

end Screen
end Chip8
