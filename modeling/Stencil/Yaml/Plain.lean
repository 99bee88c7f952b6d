import Stencil.Yaml.Quoted

/-!
# Scalars without quotes

A plain scalar ends where something follows that cannot belong to it: a colon with a space
after it, a comment, inside flow collections also a bracket, brace or comma, and outside of them
a line that is not indented far enough. `plain?` reads one from its first character on.
-/

namespace Stencil.Yaml

def isFlowIndicator (c : Char) : Bool :=
  c = ',' || c = '[' || c = ']' || c = '\x7b' || c = '\x7d'

/-- Whether the character `c` in front of `cs` ends a plain scalar. -/
def endsPlain (inFlow : Bool) (c : Char) (cs : List Char) : Bool :=
  isSpace c || (c = ':' && spaceOrEnd cs) || (inFlow && isFlowIndicator c)

/-- Inside flow collections a colon may not stand in front of these characters in a plain
scalar. -/
def isMisplacedColon (inFlow : Bool) (c : Char) (cs : List Char) : Bool :=
  inFlow && c = ':' && cs.head?.any fun next => isFlowIndicator next || next = '?'

/-- A word of a plain scalar, possibly empty, and what follows it. -/
def word? (inFlow : Bool) : List Char → Option (List Char × List Char)
  | [] => some ([], [])
  | c :: cs =>
    if isMisplacedColon inFlow c cs then none
    else if endsPlain inFlow c cs then some ([], c :: cs)
    else (word? inFlow cs).map fun (word, rest) => (c :: word, rest)

theorem rest_length_of_word? {inFlow : Bool} {cs word rest : List Char}
    (h : word? inFlow cs = some (word, rest)) : rest.length ≤ cs.length := by
  induction cs generalizing word with
  | nil =>
    obtain ⟨-, rfl⟩ := Prod.mk.inj (Option.some.inj h)
    exact Nat.le_refl _
  | cons c cs ih =>
    rw [word?] at h
    split at h
    · cases h
    · split at h
      · obtain ⟨-, rfl⟩ := Prod.mk.inj (Option.some.inj h)
        exact Nat.le_refl _
      · obtain ⟨⟨word', rest'⟩, hword, heq⟩ := Option.map_eq_some_iff.1 h
        obtain ⟨-, rfl⟩ := Prod.mk.inj heq
        exact Nat.le_trans (ih hword) (Nat.le_succ _)

/-- Whether a tab stands at the start of a line, in one of the first `indent` columns. -/
def hasTabInIndent (indent : Nat) : List Char → Bool
  | [] => false
  | c :: cs =>
    (isBreak c && ((cs.takeWhile isBlank).take indent).contains '\t') || hasTabInIndent indent cs

/-- Whether a plain scalar is over at the word that starts here. -/
def isPastPlain (inFlow : Bool) (indent : Nat) (point : Point) (cs : List Char) : Bool :=
  (!inFlow && point.column < indent) || atDocumentMark point cs || cs.head? = some '#'

theorem length_dropWhile_lt {p : Char → Bool} {cs : List Char} (h : cs.takeWhile p ≠ []) :
    (cs.dropWhile p).length < cs.length := by
  have hsum := congrArg List.length (cs.takeWhile_append_dropWhile (p := p))
  have hpos := List.length_pos_iff.2 h
  rw [List.length_append] at hsum
  omega

/-- Reads a plain scalar from somewhere after its first character on. Its further lines start in
the column `indent` or right of it. -/
def continuePlain? (inFlow : Bool) (indent : Nat) (point : Point) (cs : List Char) :
    Option Cut :=
  match _hword : word? inFlow cs with
  | none => none
  | some (word, rest) =>
    let run := rest.takeWhile isSpace
    let following := rest.dropWhile isSpace
    let point := point.after (word ++ run)
    let cut : Cut := ⟨word, run.any isBreak, point, following⟩
    if hasTabInIndent indent run then none
    else if _hrun : run = [] ∨ isPastPlain inFlow indent point following then some cut
    else
      (continuePlain? inFlow indent point following).map fun more =>
        if more.text.isEmpty then cut else more.precededBy (word ++ foldSpace run)
termination_by cs.length
decreasing_by
  exact Nat.lt_of_lt_of_le (length_dropWhile_lt fun h => _hrun (.inl h))
    (rest_length_of_word? _hword)

theorem rest_length_of_continuePlain? {inFlow : Bool} {indent : Nat} {point : Point}
    {cs : List Char} {cut : Cut} (h : continuePlain? inFlow indent point cs = some cut) :
    cut.rest.length ≤ cs.length := by
  fun_induction continuePlain? inFlow indent point cs generalizing cut with
  | case1 => cases h
  | case2 => cases h
  | case3 =>
    rename_i hword _ _ _ _ _ _
    obtain rfl := Option.some.inj h
    exact Nat.le_trans (List.dropWhile_sublist _).length_le (rest_length_of_word? hword)
  | case4 =>
    rename_i hword _ _ _ _ _ _ ih
    obtain ⟨more, hmore, rfl⟩ := Option.map_eq_some_iff.1 h
    have hle := Nat.le_trans (List.dropWhile_sublist isSpace).length_le
      (rest_length_of_word? hword)
    split
    · exact hle
    · rw [Cut.rest_precededBy]
      exact Nat.le_trans (ih hmore) hle

/-- Reads a plain scalar that starts with the character `c`. -/
def plain? (inFlow : Bool) (indent : Nat) (point : Point) (c : Char) (cs : List Char) :
    Option Cut :=
  (continuePlain? inFlow indent (point.next c) cs).map (Cut.precededBy [c])

theorem rest_length_of_plain? {inFlow : Bool} {indent : Nat} {point : Point} {c : Char}
    {cs : List Char} {cut : Cut} (h : plain? inFlow indent point c cs = some cut) :
    cut.rest.length ≤ cs.length := by
  obtain ⟨cut', hcut, rfl⟩ := Option.map_eq_some_iff.1 h
  rw [Cut.rest_precededBy]
  exact rest_length_of_continuePlain? hcut

end Stencil.Yaml
