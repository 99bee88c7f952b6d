import Stencil.Template.Node
import Stencil.Text.Blank

/-!
# Surveying raw text

A survey looks at a source without building its tree, so it has something to say about every
text. It takes for a marker only what holds no brace between its braces, leftmost first, and
calls the text between two such markers a gap. `Piece.ofSource` lists gaps and markers in order.
-/

namespace Stencil.Survey

def isBrace (c : Char) : Bool := c = '{' || c = '}'

/-- The inner text of a marker that starts right here, and the text after it. -/
def markerHere? : List Char → Option (List Char × List Char)
  | '{' :: '{' :: cs =>
    match cs.dropWhile (!isBrace ·) with
    | '}' :: '}' :: rest => some (cs.takeWhile (!isBrace ·), rest)
    | _ => none
  | _ => none

theorem eq_of_markerHere? {cs inner rest : List Char}
    (h : markerHere? cs = some (inner, rest)) :
    cs = '{' :: '{' :: inner ++ '}' :: '}' :: rest := by
  unfold markerHere? at h
  split at h
  · rename_i cs
    split at h
    · rename_i heq
      obtain ⟨rfl, rfl⟩ := Prod.mk.inj (Option.some.inj h)
      rw [← heq, List.cons_append, List.cons_append, List.takeWhile_append_dropWhile]
    · simp at h
  · simp at h

theorem length_of_markerHere? {cs inner rest : List Char}
    (h : markerHere? cs = some (inner, rest)) : cs.length = inner.length + rest.length + 4 := by
  rw [eq_of_markerHere? h]
  simp only [List.length_append, List.length_cons]
  omega

inductive Piece where
  | gap (content : List Char)
  | marker (inner : List Char)
  deriving Repr, DecidableEq

namespace Piece

/-- Puts a character in front of the first gap. -/
def extend (c : Char) : List Piece → List Piece
  | .gap content :: rest => .gap (c :: content) :: rest
  | rest => .gap [c] :: rest

/-- Gaps, some of them empty, and markers in turn, with a gap at either end. -/
def ofChars (cs : List Char) : List Piece :=
  match _hmarker : markerHere? cs with
  | some (inner, rest) => .gap [] :: .marker inner :: ofChars rest
  | none =>
    match cs with
    | [] => [.gap []]
    | c :: rest => extend c (ofChars rest)
termination_by cs.length
decreasing_by
  · have := length_of_markerHere? _hmarker
    omega
  · simp

def ofSource (source : String) : List Piece := ofChars source.toList

end Piece

/-- The inner texts of the markers, in order. -/
def markers (source : String) : List (List Char) :=
  (Piece.ofSource source).filterMap fun
    | .gap _ => none
    | .marker inner => some inner

/-! ## Block directives

An opener is `#` and a block keyword, then nothing or a blank and anything; a closer is `/` and
a keyword and nothing else. -/

/-- What follows the keyword of an opener of the given kind. -/
def afterKeyword? (kind : BlockKind) : List Char → Option (List Char)
  | '#' :: cs =>
    let keyword := kind.keyword.toList
    if keyword.isPrefixOf cs then some (cs.drop keyword.length) else none
  | _ => none

/-- The kind of an opener, and the text after its keyword. -/
def opener? (inner : List Char) : Option (BlockKind × List Char) :=
  BlockKind.all.findSome? fun kind =>
    match afterKeyword? kind inner with
    | some [] => some (kind, [])
    | some (c :: rest) => if Text.isBlank c then some (kind, c :: rest) else none
    | none => none

def closer? : List Char → Option BlockKind
  | '/' :: cs => BlockKind.ofKeyword? (String.ofList cs)
  | _ => none

end Stencil.Survey
