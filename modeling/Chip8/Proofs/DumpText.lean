/-
# Reading a hexdump back

A window of memory is dumped byte by byte: whether a byte opens a line, and what follows
it, is decided by its address and by whether it is the first.  What comes out is a line
for each block of sixteen bytes that the window shows some of (`blocks`).  With `from`
and `to` the addresses between which it shows bytes of a block:

| part of the line | is |
| --- | --- |
| header | `from`, a colon and a space |
| digits | two for each byte at `from`, ..., `to - 1` |
| newline | there exactly if the last byte of the block is shown |

Only the first line can begin inside its block and only the last can end there; so only
the last can lack its newline.  The spaces between the digits depend on the addresses, and
are skipped when the digits are read.  What is read is where the window begins, and its
bytes (`readDump_window`), so the text of a window that is not empty tells both.
-/

import Chip8.Memory.Hexdump
import Chip8.Proofs.HexText
import Chip8.Proofs.TextLines
import Mathlib.Data.List.Sort

namespace Chip8
namespace Memory

variable {m : Memory} {s e b addr : Nat}

/-! ## The blocks of a window -/

/-- The first address of a block that a window from `s` on shows. -/
def shownFrom (s block : Nat) : Nat := max s (16 * block)

/-- The address after the last one of a block that a window up to `e` shows. -/
def shownTo (e block : Nat) : Nat := min e (16 * block + 16)

/-- The blocks of sixteen bytes, by number, of which a window shows a byte. -/
def blocks (s e : Nat) : List Nat :=
  (List.range 256).filter fun block => shownFrom s block < shownTo e block

/-- A block is shown if the window has a byte of it. -/
theorem mem_blocks (he : e ≤ 4096) : b ∈ blocks s e ↔ shownFrom s b < shownTo e b := by
  rw [blocks, List.mem_filter, List.mem_range, decide_eq_true_iff]
  constructor
  · exact And.right
  · intro h
    refine ⟨?_, h⟩
    unfold shownFrom shownTo at h
    omega

/-- The blocks are shown in the order of their addresses. -/
theorem pairwise_blocks (s e : Nat) : (blocks s e).Pairwise (· < ·) :=
  List.pairwise_lt_range.filter _

/-- An empty window shows no block. -/
theorem blocks_eq_nil (h : e ≤ s) : blocks s e = [] := by
  refine List.filter_eq_nil_iff.2 fun block _ => ?_
  rw [decide_eq_true_iff]
  unfold shownFrom shownTo
  omega

/-- **The first block of a window is that of its first byte,** and the others are those of
the window from the next block on. -/
theorem blocks_eq_cons (h : s < e) (he : e ≤ 4096) :
    blocks s e = s / 16 :: blocks (16 * (s / 16) + 16) e := by
  refine List.Pairwise.eq_of_mem_iff (pairwise_blocks s e) ?_ fun b => ?_
  · refine List.pairwise_cons.2 ⟨fun b hb => ?_, pairwise_blocks _ e⟩
    rw [mem_blocks he] at hb
    unfold shownFrom shownTo at hb
    omega
  · rw [List.mem_cons, mem_blocks he, mem_blocks he]
    unfold shownFrom shownTo
    omega

/-- **What is made of a window block by block** is made of its first block and of the window
from the next block on. -/
theorem flatMap_blocks_eq {α : Type} (f : Nat → Nat → List α) (h : s < e) (he : e ≤ 4096) :
    (blocks s e).flatMap (fun b => f (shownFrom s b) (shownTo e b)) =
      f s (shownTo e (s / 16)) ++
        (blocks (16 * (s / 16) + 16) e).flatMap fun b =>
          f (shownFrom (16 * (s / 16) + 16) b) (shownTo e b) := by
  have hfirst : shownFrom s (s / 16) = s := by
    unfold shownFrom
    omega
  rw [blocks_eq_cons h he, List.flatMap_cons, hfirst]
  refine congrArg (_ ++ ·) (List.flatMap_congr fun b hb => ?_)
  have hfrom : shownFrom s b = shownFrom (16 * (s / 16) + 16) b := by
    rw [mem_blocks he] at hb
    unfold shownFrom shownTo at *
    omega
  rw [hfrom]

/-- **Induction over the blocks of a window:** what holds of an empty window, and of a
window if it holds of what is beyond its first block, holds of every window. -/
theorem block_induction {motive : Nat → Prop} (empty : ∀ s, e ≤ s → motive s)
    (next : ∀ s, s < e → motive (16 * (s / 16) + 16) → motive s) (s : Nat) : motive s := by
  induction hn : e - s using Nat.strongRecOn generalizing s with
  | ind n ih =>
    by_cases h : s < e
    · exact next s h (ih _ (by omega) (16 * (s / 16) + 16) rfl)
    · exact empty s (Nat.not_lt.1 h)

/-! ## The rows of a dump -/

/-- The bytes of a line, each with what follows it. -/
def cells (addr : Nat) : List UInt8 → List Text.Span
  | [] => []
  | b :: bs => .ofText (Text.hex 2 b.toNat ++ gapAfter addr) :: cells (addr + 1) bs

/-- A line with its header. -/
def row (addr : Nat) (bytes : List UInt8) : List Text.Span := lineHead addr ++ cells addr bytes

/-- Bytes that open no line follow one after the other. -/
theorem dumpBytes_false_append {a : List UInt8} (h : ∀ k < a.length, (addr + k) % 16 ≠ 0)
    (rest : List UInt8) :
    dumpBytes false addr (a ++ rest) = cells addr a ++ dumpBytes false (addr + a.length) rest := by
  induction a generalizing addr with
  | nil => rfl
  | cons b a ih =>
    have hfirst : (addr % 16 == 0) = false := beq_false_of_ne (h 0 (Nat.zero_lt_succ _))
    have hrest : ∀ k < a.length, (addr + 1 + k) % 16 ≠ 0 := by
      intro k hk
      have hnext := h (k + 1) (Nat.succ_lt_succ hk)
      omega
    rw [List.cons_append, dumpBytes, hfirst, Bool.or_false, if_neg Bool.false_ne_true,
      List.nil_append, ih hrest, List.length_cons, Nat.add_right_comm, Nat.add_assoc]
    rfl

/-- **What does not go beyond its block is one line of the dump.** -/
theorem dumpBytes_true_append {a : List UInt8} (hne : a ≠ []) (hroom : addr % 16 + a.length ≤ 16)
    (rest : List UInt8) :
    dumpBytes true addr (a ++ rest) = row addr a ++ dumpBytes false (addr + a.length) rest := by
  rcases a with _ | ⟨b, a⟩
  · exact (hne rfl).elim
  · rw [List.length_cons] at hroom
    have hrest : ∀ k < a.length, (addr + 1 + k) % 16 ≠ 0 := by
      intro k hk
      omega
    rw [List.cons_append, dumpBytes, Bool.true_or, if_pos rfl, dumpBytes_false_append hrest,
      List.length_cons, Nat.add_right_comm, Nat.add_assoc, row, cells, List.append_assoc]
    rfl

/-- At the start of a block a line begins anyway. -/
theorem dumpBytes_of_aligned (h : addr % 16 = 0) (bytes : List UInt8) :
    dumpBytes false addr bytes = dumpBytes true addr bytes := by
  cases bytes with
  | nil => rfl
  | cons b bytes => rw [dumpBytes, dumpBytes, h, Bool.true_or, beq_self_eq_true, Bool.or_true]

/-- A slice leaves out the bytes before its start and those from its end on. -/
theorem slice_eq (m : Memory) (s e : Nat) : m.slice s e = (m.bytes.toList.drop s).take (e - s) := by
  rw [slice, Vector.toList_extract]

/-- A slice that runs backwards is empty. -/
theorem slice_of_le (m : Memory) (h : e ≤ s) : m.slice s e = [] := by
  rw [slice_eq, Nat.sub_eq_zero_of_le h, List.take_zero]

/-- Bytes up to an address, and those from there on. -/
theorem slice_append (m : Memory) {t : Nat} (hs : s ≤ t) (he : t ≤ e) :
    m.slice s t ++ m.slice t e = m.slice s e := by
  have hlength : e - s = t - s + (e - t) := by omega
  rw [slice_eq, slice_eq, slice_eq, hlength, List.take_add, List.drop_drop, Nat.add_sub_cancel' hs]

/-- The dump of a window is the line of its first block and the dump of what is beyond. -/
theorem dumpBytes_slice (h : s < e) (he : e ≤ 4096) :
    dumpBytes true s (m.slice s e) =
      row s (m.slice s (shownTo e (s / 16))) ++
        dumpBytes true (16 * (s / 16) + 16) (m.slice (16 * (s / 16) + 16) e) := by
  have hto : shownTo e (s / 16) = min e (16 * (s / 16) + 16) := rfl
  generalize shownTo e (s / 16) = t at hto ⊢
  have hlength : (m.slice s t).length = t - s := by
    rw [length_slice]
    omega
  have hne : m.slice s t ≠ [] := by
    rw [← List.length_pos_iff, hlength]
    omega
  have hnext : s + (t - s) = t := by omega
  rw [← m.slice_append (show s ≤ t by omega) (show t ≤ e by omega),
    dumpBytes_true_append hne (by omega), hlength, hnext]
  congr 1
  by_cases hlast : e ≤ 16 * (s / 16) + 16
  · have ht : t = e := by omega
    rw [ht, m.slice_of_le (Nat.le_refl e), m.slice_of_le hlast]
    rfl
  · have ht : t = 16 * (s / 16) + 16 := by omega
    rw [ht]
    exact dumpBytes_of_aligned (by omega) _

/-- **A window is dumped block by block.** -/
theorem dumpBytes_eq_flatMap (m : Memory) (s : Nat) (he : e ≤ 4096) :
    dumpBytes true s (m.slice s e) =
      (blocks s e).flatMap fun b =>
        row (shownFrom s b) (m.slice (shownFrom s b) (shownTo e b)) := by
  induction s using block_induction (e := e) with
  | empty s h =>
    rw [m.slice_of_le h, blocks_eq_nil h]
    rfl
  | next s h ih =>
    rw [dumpBytes_slice h he, ih]
    exact (flatMap_blocks_eq (fun i j => row i (m.slice i j)) h he).symm

/-- The bytes of the blocks are the bytes of the window. -/
theorem flatMap_slice (m : Memory) (s : Nat) (he : e ≤ 4096) :
    ((blocks s e).flatMap fun b => m.slice (shownFrom s b) (shownTo e b)) = m.slice s e := by
  induction s using block_induction (e := e) with
  | empty s h =>
    rw [m.slice_of_le h, blocks_eq_nil h]
    rfl
  | next s h ih =>
    rw [flatMap_blocks_eq (fun i j => m.slice i j) h he, ih]
    have hto : shownTo e (s / 16) = min e (16 * (s / 16) + 16) := rfl
    by_cases hlast : e ≤ 16 * (s / 16) + 16
    · rw [m.slice_of_le hlast, List.append_nil, hto, Nat.min_eq_left hlast]
    · rw [hto, Nat.min_eq_right (by omega)]
      exact m.slice_append (by omega) (by omega)

/-! ## The text of a row -/

/-- What follows a byte within its line. -/
def gap (addr : Nat) : List Char := if addr % 16 = 15 then [] else (gapAfter addr).toList

/-- The bytes of a line as text. -/
def rowBody (addr : Nat) : List UInt8 → List Char
  | [] => []
  | b :: bs => (Text.hex 2 b.toNat).toList ++ gap addr ++ rowBody (addr + 1) bs

/-- A line as text, without its newline. -/
def rowLine (addr : Nat) (bytes : List UInt8) : String :=
  Text.hex 3 addr ++ ": " ++ String.ofList (rowBody addr bytes)

/-- What ends a line before an address. -/
def rowEnd (addr : Nat) : List Char := if addr % 16 = 0 then ['\n'] else []

/-- Within a line only spaces stand between bytes. -/
theorem mem_gap {c : Char} (h : c ∈ gap addr) : c = ' ' := by
  unfold gap gapAfter at h
  split_ifs at h
  all_goals simp at h
  all_goals exact h

/-- What follows a byte is its gap, and the end of the line after the last byte of a block. -/
theorem toList_gapAfter (addr : Nat) : (gapAfter addr).toList = gap addr ++ rowEnd (addr + 1) := by
  unfold gap rowEnd
  by_cases hlast : addr % 16 = 15
  · rw [if_pos hlast, if_pos (by omega), gapAfter, if_pos hlast]
    rfl
  · rw [if_neg hlast, if_neg (by omega), List.append_nil]

/-- The last byte of a block ends the line, and no other byte does. -/
theorem toList_plain_cells {bytes : List UInt8} (hne : bytes ≠ [])
    (hroom : addr % 16 + bytes.length ≤ 16) :
    (Text.plain (cells addr bytes)).toList = rowBody addr bytes ++ rowEnd (addr + bytes.length) := by
  induction bytes generalizing addr with
  | nil => exact (hne rfl).elim
  | cons b bytes ih =>
    rw [List.length_cons] at hroom
    have hcons : (Text.plain (cells addr (b :: bytes))).toList =
        (Text.hex 2 b.toNat).toList ++ (gapAfter addr).toList ++
          (Text.plain (cells (addr + 1) bytes)).toList := by
      simp [cells, Text.plain, Text.Span.ofText]
    rcases bytes with _ | ⟨b', bytes⟩
    · rw [hcons, toList_gapAfter]
      simp [cells, rowBody, Text.plain]
    · have hinside : rowEnd (addr + 1) = [] := by
        rw [List.length_cons] at hroom
        exact if_neg (by omega)
      have hlength : addr + 1 + (b' :: bytes).length = addr + (b :: b' :: bytes).length := by
        simp only [List.length_cons]
        omega
      rw [hcons, ih (List.cons_ne_nil _ _) (by omega), toList_gapAfter, hinside, List.append_nil,
        hlength]
      simp only [rowBody, List.append_assoc]

/-- A line is its address, a colon, a space and its bytes. -/
theorem toList_rowLine (addr : Nat) (bytes : List UInt8) :
    (rowLine addr bytes).toList =
      (Text.hex 3 addr).toList ++ ':' :: ' ' :: rowBody addr bytes := by
  simp [rowLine]

/-- **A line is its header and its bytes,** and ends if its last byte ends a block. -/
theorem toList_plain_row {bytes : List UInt8} (hne : bytes ≠ [])
    (hroom : addr % 16 + bytes.length ≤ 16) :
    (Text.plain (row addr bytes)).toList =
      (rowLine addr bytes).toList ++ rowEnd (addr + bytes.length) := by
  have hhead : (Text.plain (lineHead addr)).toList = (Text.hex 3 addr).toList ++ [':', ' '] := by
    simp [Text.plain, lineHead, Text.Span.ofText, Text.Span.styled]
  rw [row, Text.plain_append, String.toList_append, hhead, toList_plain_cells hne hroom,
    toList_rowLine, List.append_assoc, List.append_assoc]
  rfl

/-- The bytes of a line are written in digits and spaces. -/
theorem mem_rowBody {c : Char} {bytes : List UInt8} (h : c ∈ rowBody addr bytes) :
    Text.isHexDigit c = true ∨ c = ' ' := by
  induction bytes generalizing addr with
  | nil => cases h
  | cons b bytes ih =>
    rw [rowBody, List.mem_append, List.mem_append] at h
    rcases h with (h | h) | h
    · exact .inl (Text.isHexDigit_of_mem_hex h)
    · exact .inr (mem_gap h)
    · exact ih h

/-- A line does not break. -/
theorem newline_notMem_rowLine (addr : Nat) (bytes : List UInt8) :
    '\n' ∉ (rowLine addr bytes).toList := by
  rw [toList_rowLine, List.mem_append, List.mem_cons, List.mem_cons]
  rintro (h | h | h | h)
  · exact Text.notMem_hex_of_isHexDigit (by decide) 3 addr h
  · exact absurd h (by decide)
  · exact absurd h (by decide)
  · rcases mem_rowBody h with h | h
    · exact absurd h (by decide)
    · exact absurd h (by decide)

/-! ## Reading a line -/

/-- The characters before the colon of a line. -/
def lineAddress (line : String) : List Char := line.toList.takeWhile (· != ':')

/-- The hexadecimal digits after the header of a line. -/
def lineDigits (line : String) : List Char :=
  (line.toList.dropWhile (· != ':')).filter Text.isHexDigit

/-- An address is written without a colon. -/
theorem colon_notMem_hex (addr : Nat) : ∀ c ∈ (Text.hex 3 addr).toList, (c != ':') = true := by
  intro c hc
  rw [bne_iff_ne]
  rintro rfl
  exact Text.notMem_hex_of_isHexDigit (by decide) 3 addr hc

/-- What stands before the colon of a line is its address. -/
theorem lineAddress_rowLine (addr : Nat) (bytes : List UInt8) :
    lineAddress (rowLine addr bytes) = (Text.hex 3 addr).toList := by
  rw [lineAddress, toList_rowLine, List.takeWhile_append_of_pos (colon_notMem_hex addr),
    List.takeWhile_cons_of_neg (by decide), List.append_nil]

/-- Without the spaces a line has the digits of its bytes. -/
theorem filter_rowBody (addr : Nat) (bytes : List UInt8) :
    (rowBody addr bytes).filter Text.isHexDigit = (Text.hexBytes bytes).toList := by
  rw [Text.toList_hexBytes]
  induction bytes generalizing addr with
  | nil => rfl
  | cons b bytes ih =>
    have hdigits : (Text.hex 2 b.toNat).toList.filter Text.isHexDigit = (Text.hex 2 b.toNat).toList :=
      List.filter_eq_self.2 fun _ => Text.isHexDigit_of_mem_hex
    have hgap : (gap addr).filter Text.isHexDigit = [] := by
      refine List.filter_eq_nil_iff.2 fun c hc => ?_
      rw [mem_gap hc]
      decide
    rw [rowBody, List.filter_append, List.filter_append, hdigits, hgap, List.append_nil, ih,
      List.flatMap_cons]

/-- **The digits of a line are those of its bytes,** in order. -/
theorem lineDigits_rowLine (addr : Nat) (bytes : List UInt8) :
    lineDigits (rowLine addr bytes) = (Text.hexBytes bytes).toList := by
  have hskip : (':' :: ' ' :: rowBody addr bytes).filter Text.isHexDigit =
      (rowBody addr bytes).filter Text.isHexDigit := by
    rw [List.filter_cons_of_neg (by decide), List.filter_cons_of_neg (by decide)]
  rw [lineDigits, toList_rowLine, List.dropWhile_append_of_pos (colon_notMem_hex addr),
    List.dropWhile_cons_of_neg (by decide), hskip, filter_rowBody]

/-! ## Reading a window -/

/-- The line of a block in a window. -/
def blockLine (m : Memory) (s e block : Nat) : String :=
  rowLine (shownFrom s block) (m.slice (shownFrom s block) (shownTo e block))

/-- What ends the line of a block in a window up to `e`. -/
def blockEnd (e block : Nat) : List Char := if 16 * block + 15 < e then ['\n'] else []

/-- The text of a dump without its colours. -/
theorem stripControls_dumpBytes (opens : Bool) (addr : Nat) (bytes : List UInt8) :
    Text.stripControls (Text.render (dumpBytes opens addr bytes)) =
      Text.plain (dumpBytes opens addr bytes) := by
  refine Text.stripControls_render ?_
  have hhead (addr : Nat) : ∀ span ∈ lineHead addr, '\x1b' ∉ span.text.toList := by
    simp only [lineHead, List.forall_mem_cons, List.not_mem_nil, false_implies, implies_true,
      and_true]
    exact ⟨Text.notMem_hex_of_isHexDigit (by decide) 3 addr, by decide, by decide⟩
  induction bytes generalizing opens addr with
  | nil => exact fun _ h => absurd h List.not_mem_nil
  | cons b bytes ih =>
    intro span hspan
    rw [dumpBytes, List.mem_append, List.mem_cons] at hspan
    rcases hspan with h | rfl | h
    · split at h
      · exact hhead addr span h
      · cases h
    · show '\x1b' ∉ (Text.hex 2 b.toNat ++ gapAfter addr).toList
      rw [String.toList_append, List.mem_append, toList_gapAfter, List.mem_append]
      rintro (h | h | h)
      · exact Text.notMem_hex_of_isHexDigit (by decide) 2 _ h
      · exact absurd (mem_gap h) (by decide)
      · unfold rowEnd at h
        split at h
        · exact absurd (List.mem_singleton.1 h) (by decide)
        · cases h
    · exact ih false (addr + 1) span h

/-- The characters of a dump are those of its lines, one after the other. -/
theorem toList_plain_flatMap {α : Type} (l : List α) (f : α → List Text.Span) :
    (Text.plain (l.flatMap f)).toList = l.flatMap fun a => (Text.plain (f a)).toList := by
  induction l with
  | nil => rfl
  | cons a l ih =>
    rw [List.flatMap_cons, List.flatMap_cons, Text.plain_append, String.toList_append, ih]

/-- **The text of a window is the lines of its blocks,** each ended if its block is shown
to the end. -/
theorem toList_plain_window (m : Memory) (s : Nat) (he : e ≤ 4096) :
    (Text.plain (dumpBytes true s (m.slice s e))).toList =
      (blocks s e).flatMap fun b => (m.blockLine s e b).toList ++ blockEnd e b := by
  rw [dumpBytes_eq_flatMap m s he, toList_plain_flatMap]
  refine List.flatMap_congr fun b hb => ?_
  rw [mem_blocks he] at hb
  have hlength : (m.slice (shownFrom s b) (shownTo e b)).length = shownTo e b - shownFrom s b := by
    rw [length_slice]
    unfold shownTo
    omega
  have hne : m.slice (shownFrom s b) (shownTo e b) ≠ [] := by
    rw [← List.length_pos_iff, hlength]
    omega
  have hroom : shownFrom s b % 16 + (shownTo e b - shownFrom s b) ≤ 16 := by
    unfold shownFrom shownTo at *
    omega
  have hlast : shownFrom s b + (shownTo e b - shownFrom s b) = shownTo e b := by omega
  have hmod : shownTo e b % 16 = 0 ↔ 16 * b + 15 < e := by
    unfold shownFrom shownTo at *
    omega
  rw [toList_plain_row hne (by omega), hlength, hlast, blockLine, rowEnd, blockEnd]
  simp only [hmod]

/-- The first line begins at the start of the window, in the middle of a block or not. -/
theorem blockLine_first (m : Memory) (s e : Nat) :
    m.blockLine s e (s / 16) = rowLine s (m.slice s (shownTo e (s / 16))) := by
  have hfirst : shownFrom s (s / 16) = s := by
    unfold shownFrom
    omega
  rw [blockLine, hfirst]

/-- **The lines of a window are those of its blocks.**  A block that is not the last is
shown to its end. -/
theorem lines_window (m : Memory) (s : Nat) (he : e ≤ 4096) :
    Text.lines (Text.plain (dumpBytes true s (m.slice s e))) =
      (blocks s e).map (m.blockLine s e) := by
  have htext := m.toList_plain_window s he
  have hline (bs : List Nat) : ∀ l ∈ bs.map (m.blockLine s e), '\n' ∉ l.toList := by
    intro l hl
    rcases List.mem_map.1 hl with ⟨b, -, rfl⟩
    exact newline_notMem_rowLine _ _
  have hended (bs : List Nat) (h : ∀ b ∈ bs, 16 * b + 15 < e) :
      (bs.flatMap fun b => (m.blockLine s e b).toList ++ blockEnd e b) =
        ((bs.map (m.blockLine s e)).map String.toList).flatMap (· ++ ['\n']) := by
    rw [List.map_map, List.flatMap_map]
    refine List.flatMap_congr fun b hb => ?_
    rw [blockEnd, if_pos (h b hb)]
    rfl
  rcases List.eq_nil_or_concat (blocks s e) with hnil | ⟨init, last, hconcat⟩
  · rw [hnil] at htext ⊢
    exact Text.lines_eq (fun _ h => absurd h List.not_mem_nil) htext
  · rw [List.concat_eq_append] at hconcat
    have hlast : 16 * last < e := by
      have hmem : last ∈ blocks s e := by
        rw [hconcat]
        exact List.mem_append_right _ (List.mem_singleton_self last)
      rw [mem_blocks he] at hmem
      unfold shownFrom shownTo at hmem
      omega
    have hinit : ∀ b ∈ init, 16 * b + 15 < e := by
      intro b hb
      have hpairs := pairwise_blocks s e
      rw [hconcat, List.pairwise_append] at hpairs
      have hlt := hpairs.2.2 b hb last (List.mem_singleton_self last)
      omega
    rw [hconcat, List.flatMap_append, List.flatMap_singleton, hended init hinit] at htext
    rw [hconcat, List.map_append, List.map_singleton]
    unfold blockEnd at htext
    by_cases hend : 16 * last + 15 < e
    · rw [if_pos hend] at htext
      refine Text.lines_eq ?_ ?_
      · rw [← List.map_singleton, ← List.map_append]
        exact hline _
      · simp only [htext, List.map_append, List.map_singleton, List.flatMap_append,
          List.flatMap_singleton]
    · rw [if_neg hend, List.append_nil] at htext
      have hne : (m.blockLine s e last).toList ≠ [] := by
        rw [blockLine, toList_rowLine]
        simp
      have hnewline : '\n' ∉ (m.blockLine s e last).toList := newline_notMem_rowLine _ _
      rw [Text.lines_of_pieces (hline init) hnewline htext, if_neg hne, String.ofList_toList]

/-- Where the window of a dump begins, and its bytes, as its text tells. -/
def readDump (text : String) : Nat × List UInt8 :=
  let lines := Text.lines (Text.stripControls text)
  (Text.hexValue (lineAddress (lines.headD "")), Text.bytesOfHex (lines.flatMap lineDigits))

/-- The digits of the lines are those of all bytes of the window. -/
theorem flatMap_lineDigits (m : Memory) (s : Nat) (he : e ≤ 4096) :
    ((blocks s e).map (m.blockLine s e)).flatMap lineDigits =
      (Text.hexBytes (m.slice s e)).toList := by
  have hblock : ∀ b ∈ blocks s e, lineDigits (m.blockLine s e b) =
      (m.slice (shownFrom s b) (shownTo e b)).flatMap fun byte =>
        (Text.hex 2 byte.toNat).toList := by
    intro b _
    rw [blockLine, lineDigits_rowLine, Text.toList_hexBytes]
  rw [List.flatMap_map, List.flatMap_congr hblock, ← List.flatMap_assoc, m.flatMap_slice s he,
    Text.toList_hexBytes]

/-- **A window that is not empty can be read back.** -/
theorem readDump_window (m : Memory) (h : s < e) (he : e ≤ 4096) :
    readDump (Text.render (dumpBytes true s (m.slice s e))) = (s, m.slice s e) := by
  have hhead : ((blocks s e).map (m.blockLine s e)).headD "" =
      rowLine s (m.slice s (shownTo e (s / 16))) := by
    rw [blocks_eq_cons h he, List.map_cons, List.headD_cons, blockLine_first]
  rw [readDump, stripControls_dumpBytes]
  simp only [lines_window m s he]
  rw [hhead, lineAddress_rowLine, Text.hexValue_hex, m.flatMap_lineDigits s he,
    Text.bytesOfHex_hexBytes]

/-- The line shows a block of a window: it is opened by the address of the first byte that
is shown, and its digits are those of the bytes of the block that are shown. -/
structure ShowsBlock (m : Memory) (s e : Nat) (line : String) (block : Nat) : Prop where
  opened : (Text.hex 3 (max s (16 * block)) ++ ": ").toList <+: line.toList
  digits : lineDigits line =
    (Text.hexBytes (m.slice (max s (16 * block)) (min e (16 * block + 16)))).toList

/-- **The line of a block shows that block.** -/
theorem showsBlock_blockLine (m : Memory) (s e block : Nat) :
    m.ShowsBlock s e (m.blockLine s e block) block where
  opened := by
    refine ⟨rowBody (shownFrom s block) (m.slice (shownFrom s block) (shownTo e block)), ?_⟩
    rw [blockLine, toList_rowLine, String.toList_append, List.append_assoc]
    rfl
  digits := by
    rw [blockLine, lineDigits_rowLine]
    rfl

/-- **A hexdump is faithful.**  Take any window of a memory, and let `s` and `e` be its ends
cut to the memory.  Its text is empty exactly if `s = e`.  Without colours, its lines are
those of the blocks of sixteen bytes of which it shows a byte, in order.  Each is opened
by the address of the first byte that it shows, its digits are those of its bytes, and it
is ended by a newline exactly if the last byte of its block is shown.  The digits of all
lines are those of the bytes from `s` up to `e`, so both can be read back: two windows that
are not empty have the same text exactly if they begin at the same address and have the
same bytes, whatever memories they are windows of. -/
theorem window_faithful (m : Memory) (start stop : Nat) :
    let e := min stop 4096
    let s := min start e
    let text := Text.render (m.window start stop)
    let plain := Text.stripControls text
    let lines := Text.lines plain
    (text = "" ↔ s = e) ∧
      (s ≠ e →
        List.Forall₂ (m.ShowsBlock s e) lines (blocks s e) ∧
        (plain.toList = (lines.zip (blocks s e)).flatMap fun p =>
          p.1.toList ++ if 16 * p.2 + 15 < e then ['\n'] else []) ∧
        lines.flatMap lineDigits = (Text.hexBytes (m.slice s e)).toList ∧
        readDump text = (s, m.slice s e)) ∧
      ∀ (m' : Memory) (start' stop' : Nat),
        let e' := min stop' 4096
        let s' := min start' e'
        s ≠ e → s' ≠ e' →
          (text = Text.render (m'.window start' stop') ↔
            s = s' ∧ m.slice s e = m'.slice s' e') := by
  intro e s text plain lines
  have he : e ≤ 4096 := Nat.min_le_right _ _
  have hse : s ≤ e := Nat.min_le_right _ _
  have hplain : plain = Text.plain (dumpBytes true s (m.slice s e)) := stripControls_dumpBytes ..
  have hlines : lines = (blocks s e).map (m.blockLine s e) := by
    rw [← m.lines_window s he, ← hplain]
  have hread (hne : s ≠ e) : readDump text = (s, m.slice s e) :=
    m.readDump_window (Nat.lt_of_le_of_ne hse hne) he
  refine ⟨⟨fun hempty => ?_, fun heq => ?_⟩, fun hne => ⟨?_, ?_, ?_, hread hne⟩,
    fun m' start' stop' => ?_⟩
  · by_contra hne
    have hbytes : (readDump text).2.length = (m.slice s e).length := by rw [hread hne]
    have hnone : (readDump "").2.length = 0 := by decide
    rw [hempty, hnone, length_slice] at hbytes
    omega
  · show Text.render (dumpBytes true s (m.slice s e)) = ""
    rw [m.slice_of_le (Nat.le_of_eq heq.symm)]
    rfl
  · rw [hlines, List.forall₂_map_left_iff]
    exact List.forall₂_same.2 fun b _ => m.showsBlock_blockLine s e b
  · have hzip : lines.zip (blocks s e) = (blocks s e).map fun b => (m.blockLine s e b, b) := by
      rw [hlines, List.map_prod_right_eq_zip]
    rw [hplain, m.toList_plain_window s he, hzip, List.flatMap_map]
    rfl
  · rw [hlines, m.flatMap_lineDigits s he]
  · intro e' s' hne hne'
    constructor
    · intro heq
      have hread' : readDump (Text.render (m'.window start' stop')) = (s', m'.slice s' e') :=
        m'.readDump_window (Nat.lt_of_le_of_ne (Nat.min_le_right _ _) hne') (Nat.min_le_right _ _)
      rw [← heq, hread hne] at hread'
      exact Prod.mk.inj hread'
    · rintro ⟨hs, hbytes⟩
      show Text.render (dumpBytes true s (m.slice s e)) =
        Text.render (dumpBytes true s' (m'.slice s' e'))
      rw [hbytes, hs]

/-- A window of five bytes with the start of a block between them: two lines, the first
ended and the second not.  One byte more makes another text, and reversed ends make none. -/
theorem window_faithful_acrossBlocks :
    let e := min 0x013 4096
    let s := min 0x00E e
    let text := Text.render (fresh.window 0x00E 0x013)
    s ≠ e ∧ (Text.lines (Text.stripControls text)).length = 2 ∧
      readDump text = (0x00E, [0xF0, 0xF0, 0x10, 0xF0, 0x10]) ∧
      text ≠ Text.render (fresh.window 0x00E 0x014) ∧
      Text.render (fresh.window 0x013 0x00E) = "" := by
  intro e s text
  have hne : s ≠ e := by decide
  obtain ⟨-, hshown, hsame⟩ := fresh.window_faithful 0x00E 0x013
  obtain ⟨hlines, -, -, hread⟩ := hshown hne
  have hbytes : fresh.slice s e = [0xF0, 0xF0, 0x10, 0xF0, 0x10] := by decide +kernel
  have hlonger : fresh.slice s e ≠ fresh.slice 0x00E 0x014 := by decide +kernel
  have hblocks : (blocks s e).length = 2 := by decide +kernel
  refine ⟨hne, hlines.length_eq.trans hblocks, ?_, fun heq => ?_, ?_⟩
  · rw [hread, hbytes]
    rfl
  · exact hlonger ((hsame fresh 0x00E 0x014 hne (by decide)).1 heq).2
  · exact (fresh.window_faithful 0x013 0x00E).1.2 (by decide)

end Memory
end Chip8
