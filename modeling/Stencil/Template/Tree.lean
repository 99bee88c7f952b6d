import Stencil.Template.Marker
import Stencil.Template.Segment

/-!
# Building the tree

The segments of a source are read in order while the blocks still open are kept on a stack, so
the first fault in reading order is the one reported. `Builder.step` takes one segment,
`Builder.finish` asks that no block be left open, and `Template.compile` does both for a whole
source.
-/

namespace Stencil

/-- Blocks may enclose each other this many levels deep. -/
def maxNesting : Nat := 256

/-- A block whose closer has not been read. -/
structure OpenBlock where
  kind : BlockKind
  subject : Reference
  /-- Where the opener starts. -/
  openedAt : Nat
  /-- The siblings before the block, newest first. -/
  before : List Node
  deriving Repr

/-- What has been read of a source: the bytes so far, the finished nodes of the innermost open
block (newest first), and the open blocks from the innermost outward. -/
structure Builder where
  offset : Nat
  siblings : List Node
  enclosing : List OpenBlock
  deriving Repr

namespace Builder

def start : Builder := ⟨0, [], []⟩

/-- Adds a finished node that ends at the byte `stop`. -/
def push (b : Builder) (node : Node) (stop : Nat) : Builder :=
  { b with offset := stop, siblings := node :: b.siblings }

/-- Reads a marker that spans the bytes from `b.offset` up to `stop`. -/
def readMarker (source : String) (b : Builder) (stop : Nat) : Marker → Except ParseError Builder
  | .interpolation path =>
    .ok (b.push (.interpolation path ⟨b.offset, stop⟩) stop)
  | .opener kind path =>
    if b.enclosing.length < maxNesting then
      let subject := ⟨path, ⟨stop - 2 - path.utf8ByteSize, stop - 2⟩⟩
      .ok ⟨stop, [], ⟨kind, subject, b.offset, b.siblings⟩ :: b.enclosing⟩
    else .error (.locate source b.offset (.tooDeep maxNesting))
  | .closer kind =>
    match b.enclosing with
    | [] => .error (.locate source b.offset (.unmatched kind))
    | block :: outer =>
      if block.kind = kind then
        let node := .block kind block.subject b.siblings.reverse ⟨block.openedAt, stop⟩
        .ok ⟨stop, node :: block.before, outer⟩
      else
        let openedAt := Position.locate source block.openedAt
        .error (.locate source b.offset (.crossed kind block.kind openedAt))

def step (source : String) (b : Builder) : Segment → Except ParseError Builder
  | .text content =>
    let stop := b.offset + content.utf8ByteSize
    .ok (b.push (.literal content ⟨b.offset, stop⟩) stop)
  | .marker inner =>
    match Marker.read inner with
    | .error fault => .error (.locate source b.offset fault)
    | .ok marker => b.readMarker source (b.offset + inner.utf8ByteSize + 4) marker
  | .unterminated => .error (.locate source b.offset .unterminated)

/-- The top-level nodes, once no block is open. -/
def finish (source : String) (b : Builder) : Except ParseError (List Node) :=
  match b.enclosing with
  | [] => .ok b.siblings.reverse
  | block :: _ => .error (.locate source block.openedAt (.unclosed block.kind))

end Builder

/-- The nodes of a source. -/
def Node.parse (source : String) : Except ParseError (List Node) :=
  (Segment.ofSource source).foldlM (Builder.step source) Builder.start >>= Builder.finish source

/-- A source that has been read, together with its nodes. -/
structure Template where
  source : String
  nodes : List Node
  deriving Repr

def Template.compile (source : String) : Except ParseError Template :=
  (Node.parse source).map (Template.mk source)

end Stencil
