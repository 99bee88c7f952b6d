import Stencil.Template.Node
import Stencil.Text.Position

/-!
# What can be wrong with a template source

Every fault is found at a marker. A `ParseError` says which fault, and where that marker starts;
for a block that is never closed it is the marker that opened the block.
-/

namespace Stencil

inductive Fault where
  /-- The marker has no closing braces. -/
  | unterminated
  /-- The marker is neither a block directive nor a path. -/
  | malformed (inner : String)
  | unknownBlock (keyword : String)
  | unknownCloser (keyword : String)
  | missingPath (kind : BlockKind)
  | invalidPath (path : String) (kind : BlockKind)
  /-- The block would be nested deeper than `limit`. -/
  | tooDeep (limit : Nat)
  /-- The source ends inside the block. -/
  | unclosed (kind : BlockKind)
  /-- A closer of no open block. -/
  | unmatched (kind : BlockKind)
  /-- A closer of another kind than the innermost open block. -/
  | crossed (kind openKind : BlockKind) (openedAt : Position)
  deriving Repr, DecidableEq

def Fault.message : Fault → String
  | unterminated => "unterminated tag (missing '\x7d\x7d')"
  | malformed inner => "malformed directive '" ++ markerText inner ++ "'"
  | unknownBlock keyword => "unknown block directive '" ++ markerText ("#" ++ keyword) ++ "'"
  | unknownCloser keyword => "unknown closing directive '" ++ markerText ("/" ++ keyword) ++ "'"
  | missingPath kind => s!"missing path in '{kind.openerText}'"
  | invalidPath path kind => s!"invalid path '{path}' in '{kind.openerText}'"
  | tooDeep limit => s!"blocks nested deeper than {limit} levels"
  | unclosed kind => s!"unclosed {kind.openerText} block (missing {kind.closerText})"
  | unmatched kind => s!"unmatched {kind.closerText} with no open {kind.openerText} block"
  | crossed kind openKind openedAt =>
    s!"found {kind.closerText} but the {openKind.openerText} block opened at " ++
      s!"{openedAt.describe} is still open"

structure ParseError where
  /-- The byte at which the marker at fault starts. -/
  offset : Nat
  position : Position
  fault : Fault
  deriving Repr, DecidableEq

namespace ParseError

/-- The fault at the byte `offset` of `source`. -/
def locate (source : String) (offset : Nat) (fault : Fault) : ParseError :=
  ⟨offset, Position.locate source offset, fault⟩

def message (e : ParseError) : String :=
  s!"{e.position.describe}: {e.fault.message}"

end ParseError

end Stencil
