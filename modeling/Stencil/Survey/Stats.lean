import Stencil.Json.Basic
import Stencil.Survey.Piece
import Stencil.Template.Path
import Stencil.Text.Order

/-!
# What a template asks for

Statistics on a raw source: its size, how many blocks it opens, and which data paths it reads.
Names that belong to a loop are not data and are left out.
-/

namespace Stencil

structure Stats where
  /-- Length of the source in bytes. -/
  size : Nat
  /-- The data paths, in ascending order and each once. -/
  dataPaths : List String
  /-- Openers of conditionals and negations. -/
  conditionalCount : Nat
  loopCount : Nat
  deriving Repr, DecidableEq

namespace Survey

/-- The path that a marker mentions, if it is not a closer. -/
def mention? (inner : List Char) : Option String :=
  match opener? inner with
  | some (_, rest) => some (String.ofList (Text.trim rest))
  | none => if (closer? inner).isSome then none else some (String.ofList inner)

def isDataPath (path : String) : Bool :=
  Path.isValid path && !Path.isLoopLocal path

/-- How many openers have a kind among `kinds`. -/
def blockCount (kinds : List BlockKind) (source : String) : Nat :=
  (markers source).countP fun inner =>
    match opener? inner with
    | some (kind, _) => kinds.contains kind
    | none => false

end Survey

namespace Stats

def ofSource (source : String) : Stats where
  size := source.utf8ByteSize
  dataPaths :=
    Text.orderedSet (((Survey.markers source).filterMap Survey.mention?).filter Survey.isDataPath)
  conditionalCount := Survey.blockCount [.conditional, .negation] source
  loopCount := Survey.blockCount [.iteration] source

def toJson (s : Stats) : Json :=
  .object [("size", .int s.size), ("variables", .array (s.dataPaths.map .string)),
    ("conditional_count", .int s.conditionalCount), ("loop_count", .int s.loopCount)]

end Stats

end Stencil
