/-!
# Line and column of a place in a text

A place is a byte offset into the UTF-8 form of a text. Its position is the line it is on and
the column within that line, both counted from one and the column in characters.
`Position.locate` walks the characters before the offset; only a line feed starts a new line.
-/

namespace Stencil

structure Position where
  line : Nat
  column : Nat
  deriving Repr, DecidableEq

namespace Position

def start : Position := ⟨1, 1⟩

/-- The position after the character `c`. -/
def next (p : Position) (c : Char) : Position :=
  if c = '\n' then ⟨p.line + 1, 1⟩ else ⟨p.line, p.column + 1⟩

/-- The characters that begin before the byte `offset`. -/
def before : List Char → Nat → List Char
  | [], _ => []
  | c :: cs, offset => if offset = 0 then [] else c :: before cs (offset - c.utf8Size)

def locate (text : String) (offset : Nat) : Position :=
  (before text.toList offset).foldl next start

/-- The position as diagnostics write it. -/
def describe (p : Position) : String :=
  s!"line {p.line}, column {p.column}"

end Position

end Stencil
