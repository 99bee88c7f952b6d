import Stencil.Proofs.Text.Position

/-!
# Positions and lines

The lines of a text are what stands between its line feeds. A position says how many lines come
before a byte and how many characters of its own line do (`Position.exists_lines`), so the byte can
be found again by going through the lines: `Position.offset?` undoes `Position.locate` at every
place between two characters (`Position.offset?_locate`).
-/

namespace Stencil

namespace Text

/-- The lines of a text, without the line feeds between them. -/
def lines (cs : List Char) : List (List Char) := cs.splitOn '\n'

/-- How many bytes some lines take up, each with the line feed that ends it. -/
def linesSize (ls : List (List Char)) : Nat := (ls.map (String.utf8Len · + 1)).sum

theorem linesSize_concat (ls : List (List Char)) (line : List Char) :
    linesSize (ls ++ [line]) = linesSize ls + (String.utf8Len line + 1) := by
  rw [linesSize, linesSize, List.map_append, List.sum_append]
  rfl

theorem lines_lineFeed (cs : List Char) : lines ('\n' :: cs) = [] :: lines cs := by
  rw [lines, List.splitOn_cons_eq_if_modifyHead, if_pos (beq_self_eq_true _), lines]

theorem lines_cons {c : Char} (h : c ≠ '\n') (cs : List Char) :
    lines (c :: cs) = (lines cs).modifyHead (c :: ·) := by
  rw [lines, List.splitOn_cons_eq_if_modifyHead, if_neg (by simpa using h), lines]

theorem exists_lines_eq_cons (cs : List Char) : ∃ line rest, lines cs = line :: rest :=
  List.exists_cons_of_ne_nil (List.splitOn_ne_nil '\n' cs)

end Text

namespace Position

open Text (lines linesSize linesSize_concat lines_lineFeed lines_cons exists_lines_eq_cons)

/-- The byte that has the position: the lines before it are passed as a whole, and then as many
characters of its line as come before the column. -/
def offset? (text : String) : Position → Option Nat
  | ⟨line + 1, column + 1⟩ => do
    let content ← (lines text.toList)[line]?
    if column ≤ content.length then
      some (linesSize ((lines text.toList).take line) + String.utf8Len (content.take column))
    else none
  | _ => none

/-- What is before a position is some whole lines and a part of the next one, and what comes after
it goes on with that line. -/
theorem exists_lines (cs : List Char) :
    ∃ earlier part, cs.foldl next start = ⟨earlier.length + 1, part.length + 1⟩ ∧
      String.utf8Len cs = linesSize earlier + String.utf8Len part ∧
      ∀ after, lines (cs ++ after) = earlier ++ (lines after).modifyHead (part ++ ·) := by
  induction cs using List.reverseRecOn with
  | nil =>
      refine ⟨[], [], rfl, rfl, ?_⟩
      intro after
      obtain ⟨line, rest, hafter⟩ := exists_lines_eq_cons after
      rw [List.nil_append, hafter]
      rfl
  | append_singleton cs c ih =>
      obtain ⟨earlier, part, hposition, hsize, hlines⟩ := ih
      rw [List.foldl_append, hposition, String.utf8Len_append, hsize]
      by_cases hc : c = '\n'
      -- A line feed makes a whole line of the part before it.
      · subst hc
        refine ⟨earlier ++ [part], [], ?_, ?_, ?_⟩
        · rw [List.length_append]
          rfl
        · rw [linesSize_concat]
          rfl
        · intro after
          obtain ⟨line, rest, hafter⟩ := exists_lines_eq_cons after
          rw [← List.append_cons, hlines, lines_lineFeed, hafter]
          simp
      · refine ⟨earlier, part ++ [c], ?_, ?_, ?_⟩
        · rw [List.foldl_cons, List.foldl_nil, next, if_neg hc, List.length_append]
          rfl
        · rw [String.utf8Len_append, Nat.add_assoc]
        · intro after
          obtain ⟨line, rest, hafter⟩ := exists_lines_eq_cons after
          rw [← List.append_cons, hlines, lines_cons hc, hafter]
          simp

/-- The position of a place between two characters leads back to it. -/
theorem offset?_locate {text : String} {offset : Nat}
    (h : (String.Pos.Raw.mk offset).IsValid text) :
    (locate text offset).offset? text = some offset := by
  obtain ⟨after, htext, hoffset⟩ := exists_eq_before_append h
  obtain ⟨earlier, part, hposition, hsize, hlines⟩ := exists_lines (before text.toList offset)
  obtain ⟨line, rest, hafter⟩ := exists_lines_eq_cons after
  have hall : lines text.toList = earlier ++ (part ++ line) :: rest := by
    rw [htext, hlines, hafter, List.modifyHead_cons]
  have hcurrent : (lines text.toList)[earlier.length]? = some (part ++ line) := by
    rw [hall, List.getElem?_append_right (Nat.le_refl _), Nat.sub_self]
    rfl
  have hearlier : (lines text.toList).take earlier.length = earlier := by
    rw [hall, List.take_left]
  have hcolumn : part.length ≤ (part ++ line).length := by
    rw [List.length_append]
    exact Nat.le_add_right _ _
  rw [locate, hposition, offset?, hcurrent, Option.bind_eq_bind, Option.bind_some, if_pos hcolumn,
    hearlier, List.take_left, ← hsize, hoffset]

theorem locate_inj {text : String} {offset offset' : Nat}
    (h : (String.Pos.Raw.mk offset).IsValid text) (h' : (String.Pos.Raw.mk offset').IsValid text) :
    locate text offset = locate text offset' ↔ offset = offset' := by
  constructor
  · intro heq
    have hsame := offset?_locate h
    rw [heq, offset?_locate h'] at hsame
    exact (Option.some.inj hsame).symm
  · exact congrArg (locate text)

/-- An accented letter takes up two bytes but one column. -/
example : offset? "ab\ncd\né!" ⟨3, 2⟩ = some 8 := by decide

/-- The first line has no place for a fourth column. -/
example : offset? "ab\ncd\né!" ⟨1, 4⟩ = none := by decide

end Position

end Stencil
