/-!
# Blanks and line breaks

What separates the words of a YAML text, and what such a run of separators means inside a
scalar. Line ends that stand for a line feed are made one by `unifyBreaks` before anything else
is looked at, so that three characters are left that end a line. A `Point` says where a character
stands; lines and columns are counted from zero.
-/

namespace Stencil.Yaml

def isBlank (c : Char) : Bool := c = ' ' || c = '\t'

def isBreak (c : Char) : Bool := c = '\n' || c = '\u2028' || c = '\u2029'

def isSpace (c : Char) : Bool := isBlank c || isBreak c

/-- Whether a text is over or goes on with a blank or a line break. -/
def spaceOrEnd : List Char → Bool
  | [] => true
  | c :: _ => isSpace c

/-- What blanks and line breaks between two words of a scalar mean. Blanks stand for themselves
as long as they are on one line; otherwise they do not count, a single line feed is a blank, and
of several line breaks the first does not count if it is a line feed. -/
def foldSpace (run : List Char) : List Char :=
  match run.filter isBreak with
  | [] => run
  | ['\n'] => [' ']
  | '\n' :: breaks => breaks
  | breaks => breaks

/-! ## Points -/

structure Point where
  /-- How many bytes come before. -/
  offset : Nat
  line : Nat
  /-- How many characters come before on the line. -/
  column : Nat
  deriving Repr, DecidableEq

namespace Point

def start : Point := ⟨0, 0, 0⟩

/-- The point after the character `c`. -/
def next (p : Point) (c : Char) : Point :=
  if isBreak c then ⟨p.offset + c.utf8Size, p.line + 1, 0⟩
  else ⟨p.offset + c.utf8Size, p.line, p.column + 1⟩

def after (p : Point) (cs : List Char) : Point := cs.foldl next p

end Point

/-- Whether a line starts here that ends one document or begins another. -/
def atDocumentMark (point : Point) (cs : List Char) : Bool :=
  point.column = 0 &&
    match cs with
    | '-' :: '-' :: '-' :: rest => spaceOrEnd rest
    | '.' :: '.' :: '.' :: rest => spaceOrEnd rest
    | _ => false

/-! ## Whole texts -/

/-- The characters that may stand in a text. -/
def isPrintable (c : Char) : Bool :=
  c = '\t' || c = '\n' || c = '\r' || ('\x20' ≤ c && c ≤ '\x7e') || c = '\u0085' ||
    ('\u00a0' ≤ c && c ≠ '\ufffe' && c ≠ '\uffff')

/-- With a line feed for every line end but the two Unicode separators. -/
def unifyBreaks : List Char → List Char
  | '\r' :: '\n' :: cs => '\n' :: unifyBreaks cs
  | '\r' :: cs => '\n' :: unifyBreaks cs
  | '\u0085' :: cs => '\n' :: unifyBreaks cs
  | c :: cs => c :: unifyBreaks cs
  | [] => []

def byteOrderMark : Char := '\ufeff'

/-- A byte order mark at the start of a text says nothing about it and takes up no column. -/
def dropMark (cs : List Char) : List Char :=
  if cs.head? = some byteOrderMark then cs.drop 1 else cs

end Stencil.Yaml
