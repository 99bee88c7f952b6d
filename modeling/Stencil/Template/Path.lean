import Stencil.Text.Blank

/-!
# Data paths

A path names the data that a marker reads: a word character or `@`, then word characters and
dots. `Path.segments` cuts it at its dots. A path is loop-local when it can only speak of the
element of a surrounding loop.
-/

namespace Stencil.Path

/-- The characters that a path may go on with. -/
def isInnerChar (c : Char) : Bool :=
  c = '.' || Text.isWordChar c

def isValid (path : String) : Bool :=
  match path.toList with
  | [] => false
  | c :: cs => (c = '@' || Text.isWordChar c) && cs.all isInnerChar

/-- The parts of a path between its dots; there is always at least one. -/
def segments (path : String) : List String :=
  (path.toList.splitOn '.').map String.ofList

/-- Whether the path is a name for the state of a loop, such as `@index`. -/
def isReserved (path : String) : Bool :=
  path.toList.head? = some '@'

/-- Paths that read the current element of a loop: `this`, what lies under it, and every
reserved name. -/
def isLoopLocal (path : String) : Bool :=
  isReserved path || path = "this" || "this.".toList.isPrefixOf path.toList

end Stencil.Path
