import Stencil.Value.Basic

/-!
# What can be bound directly

`ToValue` turns ordinary data into template data: numbers of any kind, truth values, texts, lists
of such data, and optional data, where nothing becomes null.
-/

namespace Stencil

class ToValue (α : Type) where
  toValue : α → Value

export ToValue (toValue)

namespace ToValue

instance : ToValue Value := ⟨id⟩

instance : ToValue Bool := ⟨.bool⟩

instance : ToValue String := ⟨.string⟩

instance : ToValue Binary64 := ⟨.number⟩

instance : ToValue Int := ⟨fun n => .number (.ofInt n)⟩

instance : ToValue Nat := ⟨fun n => .number (.ofNat n)⟩

instance {α : Type} [ToValue α] : ToValue (List α) := ⟨fun items => .list (items.map toValue)⟩

instance {α : Type} [ToValue α] : ToValue (Option α) := ⟨fun
  | none => .null
  | some value => toValue value⟩

end ToValue

end Stencil
