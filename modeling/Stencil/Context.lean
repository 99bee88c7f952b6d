import Stencil.Value.Basic

/-!
# Contexts

A context is the data that a template is rendered with: values bound to names. It is built from
a structured object or binding by binding; other structured data is refused.
-/

namespace Stencil

structure Context where
  bindings : Bindings Value
  deriving Repr

/-- Data of the wrong kind for a context. -/
inductive ContextError where
  | null
  | boolean
  | number
  | string
  | array
  deriving Repr, DecidableEq

namespace ContextError

def kindText : ContextError → String
  | null => "null"
  | boolean => "a boolean"
  | number => "a number"
  | string => "a string"
  | array => "an array"

def message (e : ContextError) : String :=
  s!"template context must be a JSON object, got {e.kindText}"

end ContextError

namespace Context

def empty : Context := ⟨[]⟩

def insert (c : Context) (name : String) (value : Value) : Context :=
  ⟨c.bindings.insert name value⟩

def get? (c : Context) (name : String) : Option Value := c.bindings.get? name

/-- The value reached from a binding through nested maps; the empty path reaches nothing. -/
def getPath? (c : Context) : List String → Option Value
  | [] => none
  | name :: rest => (c.get? name).bind (·.getPath? rest)

def size (c : Context) : Nat := c.bindings.length

def isEmpty (c : Context) : Bool := c.bindings.isEmpty

def ofJson : Json → Except ContextError Context
  | .object fields => .ok ⟨Bindings.ofEntries (Value.ofJsonFields fields)⟩
  | .null => .error .null
  | .bool _ => .error .boolean
  | .int _ => .error .number
  | .float _ => .error .number
  | .string _ => .error .string
  | .array _ => .error .array

theorem get?_insert (c : Context) (k : String) (v : Value) (name : String) :
    (c.insert k v).get? name = if name = k then some v else c.get? name :=
  Bindings.get?_insert c.bindings k v name

end Context

end Stencil
