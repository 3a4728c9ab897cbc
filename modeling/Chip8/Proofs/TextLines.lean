/-
# The lines of a text

A text is cut into lines at its newlines.  What stands after the last newline is a line
if there is anything; so lines that end in a newline and lines with newlines between them
are read alike:

| text | its lines |
| --- | --- |
| every line ended | the lines |
| lines ended, and then some characters | the lines, and the characters |
| lines with newlines between, the last not empty | the lines |

A line that has no newline inside can be read back (`lines_of_pieces`), and then a
character of it (`charAt?`).
-/

namespace Chip8
namespace Text

/-- The lines of a text.  An end of line at the end of the text begins no line. -/
def lines (text : String) : List String :=
  let pieces := text.toList.splitOn '\n'
  (if pieces.getLast? = some [] then pieces.dropLast else pieces).map String.ofList

/-- The character in a line and a column of a text. -/
def charAt? (text : String) (line column : Nat) : Option Char :=
  (lines text)[line]?.bind fun l => l.toList[column]?

/-- Newlines between pieces end all of them but the last. -/
theorem intercalate_newline (pieces : List (List Char)) (last : List Char) :
    ['\n'].intercalate (pieces ++ [last]) = pieces.flatMap (· ++ ['\n']) ++ last := by
  induction pieces with
  | nil => exact List.append_nil last
  | cons piece pieces ih =>
    have hne : pieces ++ [last] ≠ [] := List.append_ne_nil_of_right_ne_nil _ (List.cons_ne_nil _ _)
    rw [List.cons_append, List.intercalate_cons_of_ne_nil hne, ih, List.flatMap_cons]
    simp only [List.append_assoc]

/-- **Lines can be read back,** if they have no end of line inside: those that are ended,
and what follows the last of them. -/
theorem lines_of_pieces {text : String} {ls : List String} {last : List Char}
    (h : ∀ l ∈ ls, '\n' ∉ l.toList) (hlast : '\n' ∉ last)
    (htext : text.toList = (ls.map String.toList).flatMap (· ++ ['\n']) ++ last) :
    lines text = ls ++ if last = [] then [] else [String.ofList last] := by
  have hpieces : ∀ piece ∈ ls.map String.toList ++ [last], '\n' ∉ piece := by
    intro piece hmem
    rcases List.mem_append.1 hmem with hmem | hmem
    · rcases List.mem_map.1 hmem with ⟨l, hl, rfl⟩
      exact h l hl
    · rwa [List.mem_singleton.1 hmem]
  have hsplit : text.toList.splitOn '\n' = ls.map String.toList ++ [last] := by
    rw [htext, ← intercalate_newline]
    exact List.splitOn_intercalate '\n' hpieces
      (List.append_ne_nil_of_right_ne_nil _ (List.cons_ne_nil _ _))
  have hback : (ls.map String.toList).map String.ofList = ls := by
    rw [List.map_map]
    exact (List.map_congr_left fun l _ => String.ofList_toList).trans ls.map_id
  simp only [lines, hsplit, List.getLast?_concat, Option.some.injEq]
  split
  · rw [List.dropLast_concat, hback, List.append_nil]
  · rw [List.map_append, hback]
    rfl

/-- **Ended lines can be read back,** if they have no end of line inside. -/
theorem lines_eq {text : String} {ls : List String} (h : ∀ l ∈ ls, '\n' ∉ l.toList)
    (htext : text.toList = (ls.map String.toList).flatMap (· ++ ['\n'])) : lines text = ls := by
  rw [lines_of_pieces h List.not_mem_nil (htext.trans (List.append_nil _).symm), if_pos rfl,
    List.append_nil]

/-- **Lines with newlines between them can be read back,** if they have none inside and the
last is not empty. -/
theorem lines_intercalate {text : String} {ls : List String} {last : String}
    (h : ∀ l ∈ ls ++ [last], '\n' ∉ l.toList) (hlast : last ≠ "")
    (htext : text.toList = ['\n'].intercalate ((ls ++ [last]).map String.toList)) :
    lines text = ls ++ [last] := by
  rw [List.map_append, List.map_singleton, intercalate_newline] at htext
  have hne : last.toList ≠ [] := fun he => hlast (String.toList_eq_nil_iff.1 he)
  rw [lines_of_pieces (fun l hl => h l (List.mem_append_left _ hl))
    (h last (List.mem_append_right _ (List.mem_singleton_self _))) htext, if_neg hne,
    String.ofList_toList]

end Text
end Chip8
