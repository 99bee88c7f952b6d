import Stencil.Number.Binary64

/-!
# Structured data

The JSON data model. Whole numbers are kept apart from the others, because some settings accept
only what is written without fraction and exponent. The fields of an object stand in the order
in which they are written.
-/

namespace Stencil

inductive Json where
  | null
  | bool (value : Bool)
  | int (value : Int)
  | float (value : Binary64)
  | string (value : String)
  | array (items : List Json)
  | object (fields : List (String × Json))
  deriving Repr, Inhabited

end Stencil
