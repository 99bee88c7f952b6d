/-!
# Cutting a source into text and markers

A marker runs from the first doubled opening brace to the first doubled closing brace after
it. `Segment.ofSource` cuts a source into the texts between markers and the markers themselves;
where a marker is never closed the cut ends with `unterminated`. Nothing is lost: but for the
braces of the markers, the characters of the segments are those of the source in order.
-/

namespace Stencil

/-- The characters before the first two adjacent copies of `mark`, and those after them. -/
def cutAtPair (mark : Char) : List Char → Option (List Char × List Char)
  | a :: b :: rest =>
    if a = mark ∧ b = mark then some ([], rest)
    else (cutAtPair mark (b :: rest)).map fun (before, after) => (a :: before, after)
  | _ => none

/-- A cut loses exactly the two marks. -/
theorem eq_of_cutAtPair {mark : Char} {cs before after : List Char}
    (h : cutAtPair mark cs = some (before, after)) : cs = before ++ mark :: mark :: after := by
  fun_induction cutAtPair mark cs generalizing before with
  | case1 a b rest hab =>
    obtain ⟨rfl, rfl⟩ := Prod.mk.inj (Option.some.inj h)
    simp [hab.1, hab.2]
  | case2 a b rest _ ih =>
    obtain ⟨⟨before', after'⟩, hcut, heq⟩ := Option.map_eq_some_iff.1 h
    obtain ⟨rfl, rfl⟩ := Prod.mk.inj heq
    rw [ih hcut, List.cons_append]
  | case3 => simp at h

theorem length_of_cutAtPair {mark : Char} {cs before after : List Char}
    (h : cutAtPair mark cs = some (before, after)) :
    cs.length = before.length + after.length + 2 := by
  rw [eq_of_cutAtPair h]
  simp only [List.length_append, List.length_cons]
  omega

inductive Segment where
  | text (content : String)
  | marker (inner : String)
  | unterminated
  deriving Repr, DecidableEq

namespace Segment

/-- The text segment with these characters; no characters make no segment. -/
def ofText (cs : List Char) : List Segment :=
  if cs.isEmpty then [] else [text (String.ofList cs)]

def ofChars (cs : List Char) : List Segment :=
  match _hopen : cutAtPair '{' cs with
  | none => ofText cs
  | some (before, opened) =>
    ofText before ++
      match _hclose : cutAtPair '}' opened with
      | none => [unterminated]
      | some (inner, rest) => marker (String.ofList inner) :: ofChars rest
termination_by cs.length
decreasing_by
  have := length_of_cutAtPair _hopen
  have := length_of_cutAtPair _hclose
  omega

def ofSource (source : String) : List Segment := ofChars source.toList

end Segment

end Stencil
