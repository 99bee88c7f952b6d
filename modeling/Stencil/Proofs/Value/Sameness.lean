import Stencil.Bindings
import Stencil.Proofs.Text.Order
import Stencil.Value.Text
import Mathlib

/-!
# The same data

A map is a list of entries here, in the order in which they came to be bound, and of several entries
with one name the first counts. None of this is data: two values are the same when they differ in
no more than the order of the fields and in fields that are never found. What is shown of a map is
brought into the order of the names first, and a list in that order is settled by what is found in
it (`Text.eq_of_get?_eq`), so the same values are shown alike (`Value.Same.render_eq`).
-/

namespace Stencil

/-! ## What is found in ordered entries -/

namespace Text

variable {α : Type}

theorem get?_insertOrdered (key : String) (value : α) (entries : Bindings α) (name : String) :
    Bindings.get? (insertOrdered key value entries) name =
      if name = key then some value else entries.get? name := by
  induction entries with
  | nil => rfl
  | cons entry rest ih =>
      obtain ⟨k, v⟩ := entry
      rw [insertOrdered]
      split
      · rfl
      · split
        · rename_i heq
          subst heq
          rw [Bindings.get?_cons, Bindings.get?_cons]
          split <;> rfl
        · rename_i hne
          rw [Bindings.get?_cons, ih, Bindings.get?_cons]
          by_cases hk : name = k
          · have hname : name ≠ key := fun hname => hne (hname.symm.trans hk)
            rw [if_pos hk, if_neg hname, if_pos hk]
          · rw [if_neg hk, if_neg hk]

theorem get?_ordered (entries : Bindings α) (name : String) :
    Bindings.get? (ordered entries) name = entries.get? name := by
  induction entries with
  | nil => rfl
  | cons entry rest ih =>
      show Bindings.get? (insertOrdered entry.1 entry.2 (ordered rest)) name = _
      rw [get?_insertOrdered, ih]
      rfl

theorem get?_eq_none_of_ascending {k name : String} {v : α} {rest : Bindings α}
    (h : Ascending (((k, v) :: rest).map Prod.fst)) (hname : ¬precedes k name = true) :
    rest.get? name = none := by
  obtain ⟨hk, -⟩ := List.pairwise_cons.mp h
  clear h
  induction rest with
  | nil => rfl
  | cons entry rest ih =>
      have hne : name ≠ entry.1 := by
        rintro rfl
        exact hname (hk entry.1 (List.mem_cons_self ..))
      rw [Bindings.get?_cons, if_neg hne]
      exact ih fun other hother => hk other (List.mem_cons_of_mem _ hother)

/-- Ascending entries are settled by what is found in them. -/
theorem eq_of_get?_eq {entries entries' : Bindings α} (h : Ascending (entries.map Prod.fst))
    (h' : Ascending (entries'.map Prod.fst))
    (hget : ∀ name, entries.get? name = entries'.get? name) : entries = entries' := by
  induction entries generalizing entries' with
  | nil => exact (Bindings.eq_nil_of_get? fun name => (hget name).symm).symm
  | cons entry rest ih =>
      obtain ⟨k, v⟩ := entry
      cases entries' with
      | nil => exact Bindings.eq_nil_of_get? hget
      | cons entry' rest' =>
          obtain ⟨k', v'⟩ := entry'
          -- Otherwise one of the first keys precedes the other, and is not found on the other side.
          have hkey : k = k' := by
            by_contra hne
            have hk := hget k
            have hk' := hget k'
            rw [Bindings.get?_cons_self, Bindings.get?_cons, if_neg hne] at hk
            rw [Bindings.get?_cons, if_neg (Ne.symm hne), Bindings.get?_cons_self] at hk'
            by_cases hbefore : precedes k k' = true
            · rw [get?_eq_none_of_ascending h' (not_precedes_of_precedes hbefore)] at hk
              cases hk
            · rw [get?_eq_none_of_ascending h hbefore] at hk'
              cases hk'
          subst hkey
          have hvalue := hget k
          rw [Bindings.get?_cons_self, Bindings.get?_cons_self] at hvalue
          obtain rfl := Option.some.inj hvalue
          have hrest : rest = rest' := by
            refine ih (List.pairwise_cons.mp h).2 (List.pairwise_cons.mp h').2 fun name => ?_
            by_cases hname : name = k
            · subst hname
              rw [get?_eq_none_of_ascending h (not_precedes_self name),
                get?_eq_none_of_ascending h' (not_precedes_self name)]
            · have hfound := hget name
              rwa [Bindings.get?_cons, if_neg hname, Bindings.get?_cons, if_neg hname] at hfound
          rw [hrest]

/-- The order in which entries were made is lost. -/
theorem ordered_congr {entries entries' : Bindings α}
    (h : ∀ name, entries.get? name = entries'.get? name) : ordered entries = ordered entries' := by
  refine eq_of_get?_eq (ascending_keys_ordered _) (ascending_keys_ordered _) fun name => ?_
  rw [get?_ordered, get?_ordered, h name]

end Text

/-! ## Values -/

namespace Value

/-- Values that are equal but for the order of the fields in their maps. -/
inductive Same : Value → Value → Prop
  | null : Same null null
  | bool (value : Bool) : Same (bool value) (bool value)
  | number (value : Binary64) : Same (number value) (number value)
  | string (value : String) : Same (string value) (string value)
  | list {items items' : List Value} (h : List.Forall₂ Same items items') :
      Same (list items) (list items')
  | map {fields fields' : Bindings Value}
      (h : ∀ name, Option.Rel Same (fields.get? name) (fields'.get? name)) :
      Same (map fields) (map fields')

namespace Same

mutual

/-- Equal values are the same data in particular. -/
protected theorem refl : ∀ v : Value, v.Same v
  | .null => .null
  | .bool value => .bool value
  | .number value => .number value
  | .string value => .string value
  | .list items => .list (refl_items items)
  | .map fields => .map (refl_fields fields)

theorem refl_items : ∀ items : List Value, List.Forall₂ Same items items
  | [] => .nil
  | item :: rest => .cons (Same.refl item) (refl_items rest)

theorem refl_fields : ∀ (fields : List (String × Value)) (name : String),
    Option.Rel Same (Bindings.get? fields name) (Bindings.get? fields name)
  | [], _ => .none
  | (k, v) :: rest, name => by
      rw [Bindings.get?_cons]
      split
      · exact .some (Same.refl v)
      · exact refl_fields rest name

end

theorem get?_toJsonFields (fields : Bindings Value) (name : String) :
    Bindings.get? (toJsonFields fields) name = (fields.get? name).map toJson := by
  induction fields with
  | nil => rfl
  | cons entry rest ih =>
      obtain ⟨k, v⟩ := entry
      rw [toJsonFields, Bindings.get?_cons, Bindings.get?_cons, ih]
      split <;> rfl

mutual

/-- The same values have one structured form. -/
theorem toJson_eq : ∀ (v : Value) {v' : Value}, v.Same v' → v.toJson = v'.toJson
  | .null, _, .null => rfl
  | .bool _, _, .bool _ => rfl
  | .number _, _, .number _ => rfl
  | .string _, _, .string _ => rfl
  | .list items, _, .list h => by
      rw [toJson, toJson, toJsonItems_eq items h]
  | .map fields, _, .map h => by
      rw [toJson, toJson]
      refine congrArg Json.object (Text.ordered_congr fun name => ?_)
      rw [get?_toJsonFields, get?_toJsonFields, map_toJson_eq fields name (h name)]

theorem toJsonItems_eq : ∀ (items : List Value) {items' : List Value},
    List.Forall₂ Same items items' → toJsonItems items = toJsonItems items'
  | [], _, .nil => rfl
  | item :: rest, _, .cons hitem hrest => by
      rw [toJsonItems, toJsonItems, toJson_eq item hitem, toJsonItems_eq rest hrest]

theorem map_toJson_eq : ∀ (fields : List (String × Value)) (name : String)
    {found : Option Value}, Option.Rel Same (Bindings.get? fields name) found →
      (Bindings.get? fields name).map toJson = found.map toJson
  | [], _, _, h => by
      cases h with
      | none => rfl
  | (k, v) :: rest, name, found, h => by
      rw [Bindings.get?_cons] at h ⊢
      split at h
      · rename_i hname
        rw [if_pos hname]
        cases h with
        | some hvalue => exact congrArg some (toJson_eq v hvalue)
      · rename_i hname
        rw [if_neg hname]
        exact map_toJson_eq rest name h

end

mutual

/-- The same values are shown alike. -/
theorem render_eq : ∀ (v : Value) {v' : Value}, v.Same v' → v.render = v'.render
  | .null, _, .null => rfl
  | .bool _, _, .bool _ => rfl
  | .number _, _, .number _ => rfl
  | .string _, _, .string _ => rfl
  | .list items, _, .list h => by
      rw [render, render, renderItems_eq items h]
  | .map _, _, .map h => by
      rw [render, render, toJson_eq _ (.map h)]

theorem renderItems_eq : ∀ (items : List Value) {items' : List Value},
    List.Forall₂ Same items items' → renderItems items = renderItems items'
  | [], _, .nil => rfl
  | item :: rest, _, .cons hitem hrest => by
      rw [renderItems, renderItems, render_eq item hitem, renderItems_eq rest hrest]

end

end Same

end Value

end Stencil
