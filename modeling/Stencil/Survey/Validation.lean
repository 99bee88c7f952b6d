import Stencil.Survey.Piece
import Stencil.Text.Position

/-!
# Validation of raw text

A quick check that finds the commonest faults of a source: kinds of block that are not opened
and closed equally often, and doubled opening braces that start no marker. It does not look at
the order of openers and closers, so a source may pass and still not compile; a source that
compiles always passes.
-/

namespace Stencil

inductive ValidationError where
  /-- So many more openers than closers. -/
  | unclosed (kind : BlockKind) (count : Nat)
  /-- So many more closers than openers. -/
  | unexpected (kind : BlockKind) (count : Nat)
  | unterminated (position : Position)
  deriving Repr, DecidableEq

def ValidationError.message : ValidationError → String
  | unclosed kind count =>
    s!"unclosed {kind.keyword}: {count} {kind.openerText} without matching {kind.closerText}"
  | unexpected kind count =>
    s!"unexpected {kind.closerText}: {count} closing tag(s) without a matching {kind.openerText}"
  | unterminated position => s!"unterminated tag at {position.describe}"

namespace Survey

def openerCount (kind : BlockKind) (source : String) : Nat :=
  (markers source).countP fun inner => (opener? inner).map Prod.fst = some kind

def closerCount (kind : BlockKind) (source : String) : Nat :=
  (markers source).countP fun inner => closer? inner = some kind

/-- The imbalance of one kind of block, if there is one. -/
def balance (source : String) (kind : BlockKind) : Option ValidationError :=
  let opened := openerCount kind source
  let closed := closerCount kind source
  if closed < opened then some (.unclosed kind (opened - closed))
  else if opened < closed then some (.unexpected kind (closed - opened))
  else none

def byteSize (cs : List Char) : Nat := cs.foldr (fun c size => c.utf8Size + size) 0

/-- How many bytes of a gap come before its first doubled opening brace. -/
def openBraces? : List Char → Option Nat
  | a :: b :: rest =>
    if a = '{' ∧ b = '{' then some 0 else (openBraces? (b :: rest)).map (a.utf8Size + ·)
  | _ => none

/-- Where the first doubled opening brace lies that is in a gap, for pieces that start at the
byte `offset`. -/
def unterminatedAt? (offset : Nat) : List Piece → Option Nat
  | [] => none
  | .marker inner :: rest => unterminatedAt? (offset + byteSize inner + 4) rest
  | .gap content :: rest =>
    match openBraces? content with
    | some n => some (offset + n)
    | none => unterminatedAt? (offset + byteSize content) rest

/-- All that is wrong with a source, the kinds of block in their order and then the first open
brace. -/
def errors (source : String) : List ValidationError :=
  BlockKind.all.filterMap (balance source) ++
    ((unterminatedAt? 0 (Piece.ofSource source)).map fun offset =>
      ValidationError.unterminated (Position.locate source offset)).toList

end Survey

/-- The verdict on a source and what speaks against it. -/
structure Validation where
  errors : List String
  deriving Repr, DecidableEq

namespace Validation

def isValid (v : Validation) : Bool := v.errors.isEmpty

def ofSource (source : String) : Validation :=
  ⟨(Survey.errors source).map ValidationError.message⟩

end Validation

end Stencil
