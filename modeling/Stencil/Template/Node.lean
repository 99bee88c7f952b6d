/-!
# Template trees

A template is a forest of nodes: literal text, interpolated data, and blocks that show, hide or
repeat what they enclose. Every node knows its span, the bytes of the source that it was read
from.
-/

namespace Stencil

/-- The bytes of a source from `start` up to, not including, `stop`. -/
structure Span where
  start : Nat
  stop : Nat
  deriving Repr, DecidableEq

/-- A data path together with the place where it is written. -/
structure Reference where
  path : String
  span : Span
  deriving Repr, DecidableEq

/-- A marker with the given text between its braces. -/
def markerText (inner : String) : String := "\x7b\x7b" ++ inner ++ "\x7d\x7d"

/-! ## Blocks -/

/-- A conditional shows its body when the subject is truthy, a negation when it is not, and an
iteration shows it once for each element of the subject. -/
inductive BlockKind where
  | conditional
  | negation
  | iteration
  deriving Repr, DecidableEq

namespace BlockKind

/-- The kinds in the order in which reports list them. -/
def all : List BlockKind := [.conditional, .negation, .iteration]

def keyword : BlockKind → String
  | .conditional => "if"
  | .negation => "unless"
  | .iteration => "each"

def ofKeyword? (keyword : String) : Option BlockKind :=
  all.find? (·.keyword = keyword)

/-- The opening marker without its path. -/
def openerText (kind : BlockKind) : String := markerText ("#" ++ kind.keyword)

def closerText (kind : BlockKind) : String := markerText ("/" ++ kind.keyword)

theorem ofKeyword?_keyword (kind : BlockKind) : ofKeyword? kind.keyword = some kind := by
  cases kind <;> decide

theorem keyword_of_ofKeyword? {keyword : String} {kind : BlockKind}
    (h : ofKeyword? keyword = some kind) : kind.keyword = keyword := by
  simpa using List.find?_some h

end BlockKind

/-! ## Nodes -/

inductive Node where
  | literal (text : String) (span : Span)
  | interpolation (path : String) (span : Span)
  | block (kind : BlockKind) (subject : Reference) (body : List Node) (span : Span)
  deriving Repr

namespace Node

def span : Node → Span
  | literal _ span => span
  | interpolation _ span => span
  | block _ _ _ span => span

end Node

end Stencil
