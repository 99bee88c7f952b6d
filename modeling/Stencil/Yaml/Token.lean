import Stencil.Yaml.Space

/-!
# Tokens

What the structure of a YAML text is read from. Indentation is written out as tokens of its own:
`openBlock` and `closeBlock` stand around a block collection, and `key` before every key, so that
no later stage has to look at columns.
-/

namespace Stencil.Yaml

inductive Shape where
  | sequence
  | mapping
  deriving Repr, DecidableEq

inductive Token where
  | documentStart
  | documentEnd
  | openBlock (shape : Shape)
  | closeBlock
  | openFlow (shape : Shape)
  | closeFlow (shape : Shape)
  /-- The mark of a sequence entry. -/
  | dash
  | key
  /-- The mark between a key and its value. -/
  | colon
  | comma
  | plain (text : String)
  | quoted (text : String)
  deriving Repr, DecidableEq

namespace Token

/-- The token of a character that does not belong to a scalar. -/
def ofIndicator? (inFlow : Bool) (c : Char) (cs : List Char) : Option Token :=
  match c with
  | '[' => some (openFlow .sequence)
  | ']' => some (closeFlow .sequence)
  | '\x7b' => some (openFlow .mapping)
  | '\x7d' => some (closeFlow .mapping)
  | ',' => some comma
  | '-' => if spaceOrEnd cs then some dash else none
  | '?' => if inFlow || spaceOrEnd cs then some key else none
  | ':' => if inFlow || spaceOrEnd cs then some colon else none
  | _ => none

/-- Whether a plain scalar starts with a character that is no indicator here. Some characters
have meanings that are not read, and a space that nothing has skipped starts no scalar. -/
def startsPlain (inFlow : Bool) (c : Char) : Bool :=
  !isSpace c && !"#&*!|>%@\x60".toList.contains c && !(inFlow && (c = '?' || c = ':'))

end Token

end Stencil.Yaml
