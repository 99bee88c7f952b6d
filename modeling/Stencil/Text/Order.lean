/-!
# The order of texts

Names and keys are listed by the bytes of their UTF-8 form. `Text.insertOrdered` keeps a list of
entries ascending by key with each key once, and `Text.ordered` brings any list of entries into
that form; of two entries with the same key the earlier one stays.
-/

namespace Stencil.Text

/-- The bytes of the UTF-8 form. -/
def bytes (s : String) : List UInt8 := s.toByteArray.data.toList

/-- Whether `a` is listed before `b`. -/
def precedes (a b : String) : Bool := decide (bytes a < bytes b)

theorem bytes_injective {a b : String} (h : bytes a = bytes b) : a = b := by
  apply String.toByteArray_inj.1
  exact ByteArray.ext (Array.toList_inj.1 h)

variable {α : Type}

/-- Puts an entry in its place, or in place of the entry with the same key. -/
def insertOrdered (key : String) (value : α) : List (String × α) → List (String × α)
  | [] => [(key, value)]
  | (k, v) :: rest =>
    if precedes key k then (key, value) :: (k, v) :: rest
    else if key = k then (key, value) :: rest
    else (k, v) :: insertOrdered key value rest

def ordered (entries : List (String × α)) : List (String × α) :=
  entries.foldr (fun (key, value) done => insertOrdered key value done) []

/-- The distinct texts of a list in ascending order. -/
def orderedSet (texts : List String) : List String :=
  (ordered (texts.map (·, ()))).map Prod.fst

end Stencil.Text
