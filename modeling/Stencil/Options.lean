import Stencil.Json.Basic

/-!
# Render options

How a render deals with data that is missing or of the wrong kind. `Options.ofJson?` reads them
from a structured object whose fields are all optional and must all be known.
-/

namespace Stencil

structure Options where
  /-- Whether missing data is an error. -/
  strict : Bool := false
  /-- What is shown in place of missing data. -/
  defaultValue : String := ""
  /-- How deep blocks may be nested in a render. -/
  maxDepth : Nat := 64
  /-- Whether every substitution is logged. -/
  reportDegradations : Bool := false
  deriving Repr, DecidableEq

namespace Options

/-- The greatest depth that can be asked for is that of a 64-bit word. -/
def depthLimit : Nat := 0x10000000000000000

def setField (o : Options) : String × Json → Option Options
  | ("strict", .bool value) => some { o with strict := value }
  | ("default-value", .string value) => some { o with defaultValue := value }
  | ("max-depth", .int value) =>
    if 0 ≤ value ∧ value < depthLimit then some { o with maxDepth := value.toNat } else none
  | ("report-degradations", .bool value) => some { o with reportDegradations := value }
  | _ => none

def ofJson? : Json → Option Options
  | .object fields => fields.foldlM setField {}
  | _ => none

/-- The options under the names that a log shows them by. -/
def record (o : Options) : Json :=
  .object [("strict", .bool o.strict), ("default_value", .string o.defaultValue),
    ("max_depth", .int o.maxDepth), ("report_degradations", .bool o.reportDegradations)]

end Options

end Stencil
