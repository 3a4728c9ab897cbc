/-
# Drawing, pixel by pixel

The screen is drawn a row at a time, by rotating a byte to its column and
combining words of 64 bits.  Read as a grid of pixels, this is what happens:

| part | after the sprite is drawn |
| --- | --- |
| a pixel | the other one if the sprite sets it, else the same |
| the flag | one if some pixel was lit before and is dark now |

A sprite inverts each of its rows where that row lands, so a pixel is inverted as
often as a row that sets it comes to lie on it (`inverts`).  A sprite of at most
32 rows never lies on the same row of the screen twice; then a row's overlap with
the lit pixels is the same before and after the rows above it are drawn, and the
overlaps of the rows add up to a statement about the whole grid
(`snd_drawFrom`).
-/

import Chip8.Machine.Execute

namespace Chip8
namespace Screen

/-- The sprite inverts the pixel `(px, py)` an odd number of times, if its top
left corner is at `(x, y)`. -/
def inverts (x y : Nat) : List UInt8 → Nat → Nat → Bool
  | [], _, _ => false
  | b :: bs, px, py =>
    (y % 32 == py % 32 && (spriteRow x b).getMsbD (px % 64)) ^^ inverts x (y + 1) bs px py

/-- Drawing inverts the pixels that the sprite inverts. -/
theorem get_drawFrom (s : Screen) (hit : Bool) (x y : Nat) (bs : List UInt8) (px py : Nat) :
    (s.drawFrom hit x y bs).1.get px py = (s.get px py ^^ inverts x y bs px py) := by
  induction bs generalizing s hit y with
  | nil => rw [drawFrom, inverts, Bool.xor_false]
  | cons b bs ih =>
    rw [drawFrom, ih, inverts, get_flip]
    by_cases hy : y % 32 = py % 32
    · rw [if_pos hy, beq_iff_eq.2 hy, Bool.true_and, Bool.xor_assoc]
    · rw [if_neg hy, beq_eq_false_iff_ne.2 hy, Bool.false_and, Bool.false_xor]

/-- A pixel on which no row of the sprite lies is not inverted. -/
theorem inverts_eq_false {x y : Nat} {bs : List UInt8} {py : Nat}
    (h : ∀ l < bs.length, (y + l) % 32 ≠ py % 32) (px : Nat) : inverts x y bs px py = false := by
  induction bs generalizing y with
  | nil => rfl
  | cons b bs ih =>
    have hy : y % 32 ≠ py % 32 := h 0 (Nat.zero_lt_succ _)
    have hrest : ∀ l < bs.length, (y + 1 + l) % 32 ≠ py % 32 := by
      intro l hl
      have := h (l + 1) (Nat.succ_lt_succ hl)
      rwa [show y + (l + 1) = y + 1 + l by omega] at this
    rw [inverts, ih hrest, beq_eq_false_iff_ne.2 hy]
    rfl

/-- The first row of a sprite of at most 32 rows lies alone on its row of the
screen. -/
theorem inverts_cons {x y : Nat} {b : UInt8} {bs : List UInt8} (h : (b :: bs).length ≤ 32)
    (px py : Nat) :
    inverts x y (b :: bs) px py =
      if y % 32 = py % 32 then (spriteRow x b).getMsbD (px % 64)
      else inverts x (y + 1) bs px py := by
  rw [inverts]
  by_cases hy : y % 32 = py % 32
  · have hrest : inverts x (y + 1) bs px py = false := by
      refine inverts_eq_false (fun l hl => ?_) px
      rw [List.length_cons] at h
      omega
    rw [if_pos hy, beq_iff_eq.2 hy, hrest, Bool.true_and, Bool.xor_false]
  · rw [if_neg hy, beq_eq_false_iff_ne.2 hy, Bool.false_and, Bool.false_xor]

/-- **A sprite of at most 32 rows inverts the pixels that one of its rows sets.** -/
theorem inverts_iff {x y : Nat} {bs : List UInt8} (h : bs.length ≤ 32) (px py : Nat) :
    inverts x y bs px py = true ↔
      ∃ (l : Nat) (hl : l < bs.length),
        (y + l) % 32 = py % 32 ∧ (spriteRow x bs[l]).getMsbD (px % 64) = true := by
  induction bs generalizing y with
  | nil =>
    refine ⟨fun hf => (Bool.false_ne_true hf).elim, ?_⟩
    rintro ⟨l, hl, -⟩
    exact (Nat.not_lt_zero l hl).elim
  | cons b bs ih =>
    have hlen : bs.length + 1 ≤ 32 := h
    rw [inverts_cons h]
    split
    · rename_i hy
      constructor
      · intro hb
        exact ⟨0, Nat.zero_lt_succ _, hy, hb⟩
      · rintro ⟨l, hl, hrow, hb⟩
        have hl' : l < bs.length + 1 := hl
        obtain rfl : l = 0 := by omega
        exact hb
    · rename_i hy
      rw [ih (by omega)]
      constructor
      · rintro ⟨l, hl, hrow, hb⟩
        refine ⟨l + 1, Nat.succ_lt_succ hl, ?_, hb⟩
        rwa [show y + (l + 1) = y + 1 + l by omega]
      · rintro ⟨l, hl, hrow, hb⟩
        cases l with
        | zero => exact (hy hrow).elim
        | succ l =>
          refine ⟨l, Nat.lt_of_succ_lt_succ hl, ?_, hb⟩
          rwa [show y + (l + 1) = y + 1 + l by omega] at hrow

/-- A row of bits that is not zero has a bit that is set. -/
theorem exists_getMsbD_of_ne_zero {v : BitVec 64} (h : v ≠ 0#64) :
    ∃ c < 64, v.getMsbD c = true := by
  refine Classical.byContradiction fun hno => h (BitVec.eq_of_getMsbD_eq fun c hc => ?_)
  rw [BitVec.getMsbD_zero]
  exact Bool.eq_false_iff.2 fun hb => hno ⟨c, hc, hb⟩

/-- A row overlaps the screen at a pixel that is lit in both. -/
theorem overlaps_iff (s : Screen) (y : Nat) (bits : BitVec 64) :
    s.overlaps y bits = true ↔ ∃ c < 64, s.get c y = true ∧ bits.getMsbD c = true := by
  rw [overlaps, bne_iff_ne]
  constructor
  · intro h
    obtain ⟨c, hc, hb⟩ := exists_getMsbD_of_ne_zero h
    rw [BitVec.getMsbD_and, Bool.and_eq_true] at hb
    refine ⟨c, hc, ?_, hb.2⟩
    rw [get, Nat.mod_eq_of_lt hc]
    exact hb.1
  · rintro ⟨c, hc, hs, hb⟩ hzero
    rw [get, Nat.mod_eq_of_lt hc] at hs
    have hand : (s.rows[y % 32] &&& bits).getMsbD c = true := by
      rw [BitVec.getMsbD_and, hs, hb]
      rfl
    rw [hzero, BitVec.getMsbD_zero] at hand
    exact Bool.false_ne_true hand

/-- **A sprite of at most 32 rows turns a pixel off if it inverts a lit one.**  The rows
below the first do not lie on its row, so they meet the screen as it was. -/
theorem snd_drawFrom {bs : List UInt8} (h : bs.length ≤ 32) (s : Screen) (hit : Bool) (x y : Nat) :
    (s.drawFrom hit x y bs).2 = true ↔
      hit = true ∨ ∃ px < 64, ∃ py < 32, s.get px py = true ∧ inverts x y bs px py = true := by
  induction bs generalizing s hit y with
  | nil =>
    refine ⟨.inl, ?_⟩
    rintro (hhit | ⟨px, -, py, -, -, hf⟩)
    · exact hhit
    · exact (Bool.false_ne_true hf).elim
  | cons b bs ih =>
    have hlen : bs.length + 1 ≤ 32 := h
    rw [drawFrom, ih (by omega), Bool.or_eq_true, or_assoc, overlaps_iff]
    refine or_congr_right ?_
    constructor
    · rintro (⟨c, hc, hs, hb⟩ | ⟨px, hx, py, hy, hs, hi⟩)
      · refine ⟨c, hc, y % 32, Nat.mod_lt _ (by decide), ?_, ?_⟩
        · rw [← s.get_mod, Nat.mod_mod, s.get_mod]
          exact hs
        · rw [inverts_cons h, if_pos (Nat.mod_mod ..).symm, Nat.mod_eq_of_lt hc]
          exact hb
      · have hrow : y % 32 ≠ py % 32 := by
          intro hrow
          obtain ⟨l, hl, he, -⟩ := (inverts_iff (by omega) px py).1 hi
          omega
        rw [get_flip, if_neg hrow] at hs
        exact ⟨px, hx, py, hy, hs, by rwa [inverts_cons h, if_neg hrow]⟩
    · rintro ⟨px, hx, py, hy, hs, hi⟩
      rw [inverts_cons h] at hi
      by_cases hrow : y % 32 = py % 32
      · rw [if_pos hrow, Nat.mod_eq_of_lt hx] at hi
        refine .inl ⟨px, hx, ?_, hi⟩
        rw [← s.get_mod, hrow, s.get_mod]
        exact hs
      · rw [if_neg hrow] at hi
        exact .inr ⟨px, hx, py, hy, by rwa [get_flip, if_neg hrow], hi⟩

/-- **Drawing tells whether a lit pixel was turned off.** -/
theorem snd_draw_iff {bs : List UInt8} (h : bs.length ≤ 32) (s : Screen) (x y : Nat) :
    (s.draw x y bs).2 = true ↔
      ∃ (px : Fin 64) (py : Fin 32),
        s.get px py = true ∧ (s.draw x y bs).1.get px py = false := by
  have hoff {px py : Nat} (hlit : s.get px py = true) :
      (s.draw x y bs).1.get px py = false ↔ inverts x y bs px py = true := by
    rw [draw, get_drawFrom, hlit, Bool.true_xor, Bool.not_eq_false']
  rw [draw, snd_drawFrom h]
  constructor
  · rintro (hf | ⟨px, hx, py, hy, hlit, hi⟩)
    · exact (Bool.false_ne_true hf).elim
    · exact ⟨⟨px, hx⟩, ⟨py, hy⟩, hlit, (hoff hlit).2 hi⟩
  · rintro ⟨px, py, hlit, hdark⟩
    exact .inr ⟨px, px.isLt, py, py.isLt, hlit, (hoff hlit).1 hdark⟩

/-- A byte whose left end is in column `x` sets the pixels of its bits, the top
bit first, going round the screen. -/
theorem getMsbD_spriteRow_iff (x : Nat) (byte : UInt8) {px : Nat} (hpx : px < 64) :
    (spriteRow x byte).getMsbD px = true ↔
      ∃ c : Nat, c < 8 ∧ px = (x % 64 + c) % 64 ∧ byte.toNat.testBit (7 - c) = true := by
  have hbit (c : Nat) :
      byte.toBitVec.getMsbD c = (decide (c < 8) && byte.toNat.testBit (7 - c)) := rfl
  rw [getMsbD_spriteRow x byte hpx, hbit, Bool.and_eq_true, decide_eq_true_iff]
  have hx : x % 64 < 64 := Nat.mod_lt _ (by decide)
  constructor
  · rintro ⟨hc, hb⟩
    exact ⟨_, hc, by omega, hb⟩
  · rintro ⟨c, hc, hcol, hb⟩
    have : (px + 64 - x % 64) % 64 = c := by omega
    rw [this]
    exact ⟨hc, hb⟩

end Screen

namespace Memory

/-- A run of bytes goes round the end of memory. -/
theorem read_add_ofNat (m : Memory) (a : UInt16) (k : Nat) :
    m.read (a + UInt16.ofNat k) = m.bytes[(a.toNat + k) % 4096] := by
  have h : (a + UInt16.ofNat k).toNat % 4096 = (a.toNat + k) % 4096 := by
    rw [UInt16.toNat_add, UInt16.toNat_ofNat']
    omega
  simp only [read, wrap, Word.address, h]

/-- As many bytes are read as are asked for. -/
theorem length_readRun (m : Memory) (a : UInt16) (n : Nat) : (m.readRun a n).length = n := by
  rw [readRun, List.length_map, List.length_range]

/-- The bytes that are read lie one after the other, around the end of memory. -/
theorem getElem_readRun (m : Memory) (a : UInt16) {n l : Nat} (hl : l < (m.readRun a n).length) :
    (m.readRun a n)[l] = m.bytes[(a.toNat + l) % 4096] := by
  simp only [readRun, List.getElem_map, List.getElem_range, read_add_ofNat]

end Memory

/-- The `n` bytes from an address on, as a sprite with its corner at `(x, y)`,
invert the pixels on which a bit of theirs lies. -/
theorem Screen.inverts_readRun_iff (m : Memory) (a : UInt16) (x y : Nat) (n : Nibble) (px : Fin 64)
    (py : Fin 32) :
    inverts x y (m.readRun a n.val) px py = true ↔
      ∃ l : Nat, l < n.val ∧ ∃ c : Nat, c < 8 ∧
        px.val = (x % 64 + c) % 64 ∧ py.val = (y % 32 + l) % 32 ∧
          (m.bytes[(a.toNat + l) % 4096]).toNat.testBit (7 - c) = true := by
  have hlen : (m.readRun a n.val).length = n.val := m.length_readRun a n.val
  have hn := n.isLt
  have hrow (l : Nat) : (y + l) % 32 = py.val % 32 ↔ py.val = (y % 32 + l) % 32 := by omega
  rw [inverts_iff (by omega)]
  constructor
  · rintro ⟨l, hl, hy, hb⟩
    rw [Memory.getElem_readRun, Nat.mod_eq_of_lt px.isLt, getMsbD_spriteRow_iff _ _ px.isLt] at hb
    obtain ⟨c, hc, hx, hbit⟩ := hb
    exact ⟨l, by omega, c, hc, hx, (hrow l).1 hy, hbit⟩
  · rintro ⟨l, hl, c, hc, hx, hy, hbit⟩
    refine ⟨l, by omega, (hrow l).2 hy, ?_⟩
    rw [Memory.getElem_readRun, Nat.mod_eq_of_lt px.isLt, getMsbD_spriteRow_iff _ _ px.isLt]
    exact ⟨c, hc, hx, hbit⟩

namespace Machine

/-- **Drawing, as a picture.**  The sprite of `n` bytes at the index register, with
its corner at the column and the row that registers `x` and `y` held before,
inverts the pixels that it sets.  It goes round the screen on both axes, and
round the end of memory.  The flag register tells whether a pixel was turned
off, and nothing but the screen and the flag register changes. -/
theorem pixels_execute_draw (m : Machine) (x y : Reg) (n : Nibble) :
    let X := (m.reg x).toNat % 64
    let Y := (m.reg y).toNat % 32
    let after := (m.execute (.draw x y n)).machine
    (m.execute (.draw x y n)).result = .ok () ∧
      (∀ (px : Fin 64) (py : Fin 32), after.screen.get px py =
        (m.screen.get px py ^^ decide (∃ l : Nat, l < n.val ∧ ∃ c : Nat, c < 8 ∧
          px.val = (X + c) % 64 ∧ py.val = (Y + l) % 32 ∧
            (m.memory.bytes[(m.index.toNat + l) % 4096]).toNat.testBit (7 - c) = true))) ∧
      after.reg flagReg =
        (if ∃ (px : Fin 64) (py : Fin 32),
            m.screen.get px py = true ∧ after.screen.get px py = false
          then 1 else 0) ∧
      after = { m.setReg flagReg (after.reg flagReg) with screen := after.screen } := by
  intro X Y after
  have hscreen : after.screen = (m.screen.draw (m.reg x).toNat (m.reg y).toNat
      (m.memory.readRun m.index n.val)).1 := rfl
  have hflag : after.reg flagReg = if (m.screen.draw (m.reg x).toNat (m.reg y).toNat
      (m.memory.readRun m.index n.val)).2 then 1 else 0 := by
    show (m.registers.set 15 _)[15] = _
    rw [Vector.getElem_set_self]
  refine ⟨rfl, fun px py => ?_, ?_, ?_⟩
  · rw [hscreen, Screen.draw, Screen.get_drawFrom]
    refine congrArg _ (Bool.eq_iff_iff.2 ?_)
    rw [decide_eq_true_iff, Screen.inverts_readRun_iff]
  · have hlen : (m.memory.readRun m.index n.val).length ≤ 32 := by
      have hn := n.isLt
      rw [Memory.length_readRun]
      omega
    rw [hflag, hscreen]
    exact ite_congr (propext (Screen.snd_draw_iff hlen ..)) (fun _ => rfl) fun _ => rfl
  · rw [hflag]
    rfl

end Machine
end Chip8
