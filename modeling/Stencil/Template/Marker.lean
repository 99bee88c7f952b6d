import Stencil.Template.ParseError
import Stencil.Template.Path

/-!
# Markers

What stands between the braces of a marker is a path to interpolate, `#` with a block keyword
and the path of its subject, or `/` with the keyword of the block it closes. The keyword of an
opener ends at the first separator; blanks between it and the path do not matter, blanks after
the path are not allowed.
-/

namespace Stencil

inductive Marker where
  | interpolation (path : String)
  | opener (kind : BlockKind) (path : String)
  | closer (kind : BlockKind)
  deriving Repr, DecidableEq

namespace Marker

/-- The keyword of an opener, and its path without the blanks before it. -/
def openerParts (cs : List Char) : String × String :=
  let notSeparator c := !Text.isSeparator c
  (String.ofList (cs.takeWhile notSeparator),
    String.ofList (Text.trimStart ((cs.dropWhile notSeparator).drop 1)))

def readOpener (cs : List Char) : Except Fault Marker :=
  let (keyword, path) := openerParts cs
  match BlockKind.ofKeyword? keyword with
  | none => .error (.unknownBlock keyword)
  | some kind =>
    if path.isEmpty then .error (.missingPath kind)
    else if Path.isValid path then .ok (opener kind path)
    else .error (.invalidPath path kind)

def readCloser (keyword : String) : Except Fault Marker :=
  match BlockKind.ofKeyword? keyword with
  | none => .error (.unknownCloser keyword)
  | some kind => .ok (closer kind)

/-- Reads the text between the braces of a marker. -/
def read (inner : String) : Except Fault Marker :=
  match inner.toList with
  | '#' :: cs => readOpener cs
  | '/' :: cs => readCloser (String.ofList cs)
  | _ => if Path.isValid inner then .ok (interpolation inner) else .error (.malformed inner)

end Marker

end Stencil
