import Stencil.Yaml.Token

/-!
# Layout

The part of the structure of a YAML text that depends on where tokens stand. A block collection
lasts as long as tokens start no further left than it does. Whether a token starts a key shows
only at the colon after it, so `Layout` remembers the places where a key may have started, one
for each flow collection that is open and one outside of them all, and puts the tokens that
belong there in afterwards. A key stands on one line, and not too far from its colon; a token
that can only be a key is an error without one.
-/

namespace Stencil.Yaml

/-- A place where a key may have started. -/
structure KeyStart where
  point : Point
  /-- Whether nothing but a key may stand there. -/
  required : Bool
  /-- How many tokens come before it. -/
  tokensBefore : Nat
  deriving Repr

namespace KeyStart

/-- A colon is at most this many bytes after the start of its key. -/
def maxWidth : Nat := 1024

/-- Whether a colon at the given point would be too late. -/
def isStale (k : KeyStart) (point : Point) : Bool :=
  k.point.line < point.line || k.point.offset + maxWidth < point.offset

end KeyStart

structure Layout where
  /-- The columns of the open block collections, innermost first. -/
  indents : List Nat
  /-- The possible key in the innermost flow collection, or outside of all. -/
  key : Option KeyStart
  /-- Those around the open flow collections, innermost first. -/
  outerKeys : List (Option KeyStart)
  /-- Whether a key may start at the next token. -/
  keyAllowed : Bool
  /-- The tokens so far, last first. -/
  tokens : List Token
  deriving Repr

namespace Layout

def start : Layout := ⟨[], none, [], true, []⟩

def inFlow (l : Layout) : Bool := !l.outerKeys.isEmpty

/-- The least column that is right of the innermost block collection. -/
def innerColumn (l : Layout) : Nat :=
  match l.indents with
  | [] => 0
  | column :: _ => column + 1

/-! ## Tokens -/

def emit (l : Layout) (token : Token) : Layout := { l with tokens := token :: l.tokens }

/-- Puts a token in after the first `before` tokens. -/
def insert (l : Layout) (before : Nat) (token : Token) : Layout :=
  let newer := l.tokens.length - before
  { l with tokens := l.tokens.take newer ++ token :: l.tokens.drop newer }

/-! ## Block collections -/

/-- Opens a block collection in a column right of those that are open; in one of these columns it
is open already. Flow collections hold no block collections. -/
def openBlock (l : Layout) (column before : Nat) (shape : Shape) : Layout :=
  if !l.inFlow && l.innerColumn ≤ column then
    { l.insert before (.openBlock shape) with indents := column :: l.indents }
  else l

/-- Closes the innermost block collections as long as their columns say so. -/
def closeBlocks (l : Layout) (isOver : Nat → Bool) : Layout :=
  if l.inFlow then l
  else
    { l with
      indents := l.indents.dropWhile isOver
      tokens := List.replicate (l.indents.takeWhile isOver).length .closeBlock ++ l.tokens }

/-! ## Keys -/

/-- Gives up the possible key, which must not be required. -/
def forgetKey (l : Layout) : Option Layout :=
  if l.key.any (·.required) then none else some { l with key := none }

/-- Gives up the possible keys for which a colon at the given point would be too late. -/
def forgetStale (l : Layout) (point : Point) : Option Layout :=
  let keep : Option KeyStart → Option KeyStart := Option.filter (!·.isStale point)
  if (l.key :: l.outerKeys).any fun key => key.any fun k => k.required && k.isStale point then none
  else some { l with key := keep l.key, outerKeys := l.outerKeys.map keep }

/-- Remembers that a key may start here. Where an entry of the innermost block collection has to
start, it is required. -/
def startKey (l : Layout) (point : Point) : Option Layout :=
  if l.keyAllowed then
    l.forgetKey.map fun l =>
      let required := !l.inFlow && l.indents.head? = some point.column
      { l with key := some ⟨point, required, l.tokens.length⟩ }
  else some l

/-! ## Reading indicators -/

def openFlow (l : Layout) (point : Point) (shape : Shape) : Option Layout :=
  (l.startKey point).map fun l =>
    { l.emit (.openFlow shape) with
      key := none, outerKeys := l.key :: l.outerKeys, keyAllowed := true }

/-- After a flow collection the possible key is again that of the place it stands in. -/
def closeFlow (l : Layout) (shape : Shape) : Option Layout :=
  match l.outerKeys with
  | [] => none
  | key :: outerKeys =>
    l.forgetKey.map fun l =>
      { l.emit (.closeFlow shape) with key, outerKeys, keyAllowed := false }

def comma (l : Layout) : Option Layout :=
  l.forgetKey.map fun l => { l.emit .comma with keyAllowed := true }

/-- Entries of block sequences start where keys may start. -/
def dash (l : Layout) (point : Point) : Option Layout :=
  if l.inFlow || !l.keyAllowed then none
  else
    (l.openBlock point.column l.tokens.length .sequence).forgetKey.map fun l => l.emit .dash

/-- A key that is marked as such. -/
def markedKey (l : Layout) (point : Point) : Option Layout :=
  if l.inFlow || l.keyAllowed then
    (l.openBlock point.column l.tokens.length .mapping).forgetKey.map fun l =>
      { l.emit .key with keyAllowed := !l.inFlow }
  else none

/-- After a colon no key may start, unless the colon belongs to a marked key. -/
def colon (l : Layout) (point : Point) : Option Layout :=
  match l.key with
  | some k =>
    let l := (l.insert k.tokensBefore .key).openBlock k.point.column k.tokensBefore .mapping
    some { l.emit .colon with key := none, keyAllowed := false }
  | none =>
    if l.inFlow || l.keyAllowed then
      let l := l.openBlock point.column l.tokens.length .mapping
      some { l.emit .colon with keyAllowed := !l.inFlow }
    else none

/-- A line that starts or ends a document closes all block collections. -/
def documentMark (l : Layout) (token : Token) : Option Layout :=
  (l.closeBlocks fun _ => true).forgetKey.map fun l => { l.emit token with keyAllowed := false }

/-- Reads an indicator that stands at the given point. -/
def read (l : Layout) (point : Point) : Token → Option Layout
  | .openFlow shape => l.openFlow point shape
  | .closeFlow shape => l.closeFlow shape
  | .dash => l.dash point
  | .key => l.markedKey point
  | .colon => l.colon point
  | .comma => l.comma
  | _ => none

/-- The tokens of a text that is over. -/
def finish (l : Layout) : Option (List Token) :=
  (l.closeBlocks fun _ => true).forgetKey.map (·.tokens.reverse)

end Layout

end Stencil.Yaml
