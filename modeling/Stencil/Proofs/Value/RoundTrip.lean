import Stencil.Proofs.Number.Exactness
import Stencil.Proofs.Render.Arrangement

/-!
# Values that come back from their structured form

The structured form of a value can be taken in again. Then everything is as it was, but for the
numbers: of these, what is not finite is null, and both zeros are the positive one
(`Value.jsonNumber`). A number takes one of two ways, as a whole number or as a float, and
`Value.ofJson_numberJson` says that they end alike. What was taken in from JSON data has finite
numbers only, so it comes back but for the sign of zeros (`Value.ofJson_toJson`).
-/

namespace Stencil

/-! ## Numbers -/

namespace Value

/-- What is left of a number in structured data. -/
def jsonNumber (x : Binary64) : Value := if x.isFinite then number x.mergeZeros else null

theorem shortWhole?_of_isZero {x : Binary64} (h : x.isZero = true) : shortWhole? x = some 0 := by
  rw [shortWhole?, Binary64.toInt?_of_isZero h]
  rfl

/-- A number that is written as a whole number reads back as one that is written as a float does. -/
theorem ofJson_numberJson (x : Binary64) : ofJson (numberJson x) = jsonNumber x := by
  unfold numberJson jsonNumber
  cases hwhole : shortWhole? x with
  | some n =>
      have hn : x.toInt? = some n := (Option.filter_eq_some_iff.mp hwhole).1
      dsimp only
      rw [if_pos (Binary64.of_toInt?_eq_some hn).1, ← Binary64.ofInt_of_toInt? hn, ofJson]
  | none =>
      dsimp only
      split
      · have hzero : ¬x.isZero = true := fun hzero => by
          rw [shortWhole?_of_isZero hzero] at hwhole
          cases hwhole
        rw [Binary64.mergeZeros, if_neg hzero]
        rfl
      · rfl

/-! ## Numbers of a value -/

mutual

/-- The value with something else for each of its numbers. -/
def mapNumbers (f : Binary64 → Value) : Value → Value
  | null => null
  | bool value => bool value
  | number value => f value
  | string value => string value
  | list items => list (mapNumbersItems f items)
  | map fields => map (mapNumbersFields f fields)

def mapNumbersItems (f : Binary64 → Value) : List Value → List Value
  | [] => []
  | item :: rest => item.mapNumbers f :: mapNumbersItems f rest

def mapNumbersFields (f : Binary64 → Value) : List (String × Value) → List (String × Value)
  | [] => []
  | (name, value) :: rest => (name, value.mapNumbers f) :: mapNumbersFields f rest

end

/-- All numbers that are found in a value are such. -/
inductive Numbers (p : Binary64 → Prop) : Value → Prop
  | null : Numbers p null
  | bool (value : Bool) : Numbers p (bool value)
  | number {value : Binary64} (h : p value) : Numbers p (number value)
  | string (value : String) : Numbers p (string value)
  | list {items : List Value} (h : ∀ item ∈ items, Numbers p item) : Numbers p (list items)
  | map {fields : Bindings Value}
      (h : ∀ name value, fields.get? name = some value → Numbers p value) : Numbers p (map fields)

/-! ## Items and fields, one by one -/

theorem toJsonItems_eq_map (items : List Value) : toJsonItems items = items.map toJson := by
  induction items with
  | nil => rfl
  | cons item rest ih => exact congrArg (item.toJson :: ·) ih

theorem ofJsonItems_eq_map (items : List Json) : ofJsonItems items = items.map ofJson := by
  induction items with
  | nil => rfl
  | cons item rest ih => exact congrArg (ofJson item :: ·) ih

theorem ofJsonFields_eq_map (fields : List (String × Json)) :
    ofJsonFields fields = fields.map fun (name, value) => (name, ofJson value) := by
  induction fields with
  | nil => rfl
  | cons field rest ih => exact congrArg ((field.1, ofJson field.2) :: ·) ih

variable (f : Binary64 → Value)

theorem mapNumbersItems_eq_map (items : List Value) :
    mapNumbersItems f items = items.map (mapNumbers f) := by
  induction items with
  | nil => rfl
  | cons item rest ih => exact congrArg (item.mapNumbers f :: ·) ih

theorem mapNumbersFields_eq_map (fields : List (String × Value)) :
    mapNumbersFields f fields = fields.map fun (name, value) => (name, value.mapNumbers f) := by
  induction fields with
  | nil => rfl
  | cons field rest ih => exact congrArg ((field.1, field.2.mapNumbers f) :: ·) ih

/-- The fields of a map are found again, each taken in from its structured form. -/
theorem get?_ofJson_toJson (fields : Bindings Value) (name : String) :
    (Bindings.ofEntries (ofJsonFields (Text.ordered (toJsonFields fields)))).get? name =
      (fields.get? name).map fun value => ofJson value.toJson := by
  have hnodup : (Bindings.names (ofJsonFields (Text.ordered (toJsonFields fields)))).Nodup := by
    rw [ofJsonFields_eq_map, Bindings.names, List.map_map]
    exact (Text.ascending_keys_ordered (toJsonFields fields)).nodup
  rw [Bindings.get?_ofEntries_of_nodup hnodup, ofJsonFields_eq_map, Bindings.get?_map,
    Text.get?_ordered, Same.get?_toJsonFields, Option.map_map]
  rfl

/-! ## Values -/

variable {f}

/-- What happens to each number on the way, happens to the value. -/
theorem Numbers.same {v : Value} (h : v.Numbers fun x => ofJson (numberJson x) = f x) :
    (ofJson v.toJson).Same (v.mapNumbers f) := by
  induction h with
  | null => exact .null
  | bool value => exact .bool value
  | number h =>
      rw [toJson, h, mapNumbers]
      exact .refl _
  | string value => exact .string value
  | list h ih =>
      rw [toJson, ofJson, mapNumbers, toJsonItems_eq_map, ofJsonItems_eq_map,
        mapNumbersItems_eq_map, List.map_map]
      refine .list (List.forall₂_map_left_iff.mpr (List.forall₂_map_right_iff.mpr ?_))
      exact List.forall₂_same.mpr ih
  | map h ih =>
      rename_i fields
      rw [toJson, ofJson, mapNumbers]
      refine .map fun name => ?_
      rw [get?_ofJson_toJson, mapNumbersFields_eq_map, Bindings.get?_map]
      cases hget : fields.get? name with
      | none => exact .none
      | some value => exact .some (ih name value hget)

mutual

theorem numbers_of_forall {p : Binary64 → Prop} (h : ∀ x, p x) : ∀ v : Value, v.Numbers p
  | null => .null
  | bool value => .bool value
  | number value => .number (h value)
  | string value => .string value
  | list items => .list (numbers_of_forall_items h items)
  | map fields => .map (numbers_of_forall_fields h fields)

theorem numbers_of_forall_items {p : Binary64 → Prop} (h : ∀ x, p x) :
    ∀ items : List Value, ∀ item ∈ items, item.Numbers p
  | [] => List.forall_mem_nil _
  | item :: rest =>
      List.forall_mem_cons.mpr ⟨numbers_of_forall h item, numbers_of_forall_items h rest⟩

theorem numbers_of_forall_fields {p : Binary64 → Prop} (h : ∀ x, p x) :
    ∀ (fields : List (String × Value)) (name : String) (value : Value),
      Bindings.get? fields name = some value → value.Numbers p
  | [], _, _, hget => by cases hget
  | (k, v) :: rest, name, value, hget => by
      rw [Bindings.get?_cons] at hget
      split at hget
      · obtain rfl := Option.some.inj hget
        exact numbers_of_forall h v
      · exact numbers_of_forall_fields h rest name value hget

end

theorem Numbers.mono {p q : Binary64 → Prop} (hpq : ∀ x, p x → q x) {v : Value}
    (h : v.Numbers p) : v.Numbers q := by
  induction h with
  | null => exact .null
  | bool value => exact .bool value
  | number h => exact .number (hpq _ h)
  | string value => exact .string value
  | list h ih => exact .list ih
  | map h ih => exact .map ih

end Value

/-! ## Values from structured data -/

/-- The numbers are as JSON data has them: whole ones of 64 bits, with a sign or without, and finite
ones. -/
inductive Json.Bounded : Json → Prop
  | null : Bounded null
  | bool (value : Bool) : Bounded (bool value)
  | int {value : Int} (hlow : -2 ^ 63 ≤ value) (hhigh : value < 2 ^ 64) : Bounded (int value)
  | float {value : Binary64} (h : value.isFinite = true) : Bounded (float value)
  | string (value : String) : Bounded (string value)
  | array {items : List Json} (h : ∀ item ∈ items, Bounded item) : Bounded (array items)
  | object {fields : List (String × Json)} (h : ∀ field ∈ fields, Bounded field.2) :
      Bounded (object fields)

theorem Json.Bounded.finite {j : Json} (h : j.Bounded) :
    (Value.ofJson j).Numbers fun x => x.isFinite = true := by
  induction h with
  | null => exact .null
  | bool value => exact .bool value
  | int hlow hhigh => exact .number (Binary64.isFinite_ofInt (by omega))
  | float h => exact .number h
  | string value => exact .string value
  | array h ih =>
      rw [Value.ofJson, Value.ofJsonItems_eq_map]
      exact .list (List.forall_mem_map.mpr ih)
  | object h ih =>
      rw [Value.ofJson, Value.ofJsonFields_eq_map]
      refine .map fun name value hget => ?_
      obtain ⟨field, hfield, heq⟩ := List.mem_map.mp (Bindings.mem_of_get?_ofEntries hget)
      obtain ⟨rfl, rfl⟩ := Prod.mk.inj heq
      exact ih field hfield

/-- The structured form of a value reads back as the value, with null for the numbers that are not
finite and positive zero for both zeros. What was read from structured data is all there again, up
to the sign of zeros. -/
theorem Value.ofJson_toJson :
    (∀ v : Value, (ofJson v.toJson).Same (v.mapNumbers jsonNumber)) ∧
    ∀ j : Json, j.Bounded →
      (ofJson (ofJson j).toJson).Same ((ofJson j).mapNumbers fun x => number x.mergeZeros) := by
  constructor
  · intro v
    exact (numbers_of_forall ofJson_numberJson v).same
  · intro j hj
    refine (hj.finite.mono fun x hx => ?_).same
    rw [ofJson_numberJson, jsonNumber, if_pos hx]

/-- A negative zero comes back as the positive one, beside a whole number and one between whole
numbers. What is no number does not come back. -/
theorem Value.ofJson_toJson_zero :
    let half : Binary64 := .ofBits 0x3FE0000000000000
    let j : Json := .object [("x", .array [.float (.ofBits 0x8000000000000000), .int 7,
      .float half])]
    j.Bounded ∧
    (ofJson (ofJson j).toJson).Same
      (map [("x", list [number (.ofBits 0), number (.ofInt 7), number half])]) ∧
    (ofJson (list [number (.ofBits 0x7FF8000000000000), number half]).toJson).Same
      (list [null, number half]) := by
  intro half j
  have hbounded : j.Bounded := by
    refine .object (List.forall_mem_singleton.mpr (.array ?_))
    refine List.forall_mem_cons.mpr ⟨.float (by decide), ?_⟩
    refine List.forall_mem_cons.mpr ⟨.int (by decide) (by decide), ?_⟩
    exact List.forall_mem_singleton.mpr (.float (by decide))
  have hzero : (Binary64.ofBits 0x8000000000000000).mergeZeros = .ofBits 0 := by decide
  have hseven : (Binary64.ofInt 7).mergeZeros = .ofInt 7 := by decide +kernel
  have hnumbers : (ofJson j).mapNumbers (fun x => number x.mergeZeros) =
      map [("x", list [number (.ofBits 0), number (.ofInt 7), number half])] := by
    rw [← hzero, ← hseven]
    rfl
  refine ⟨hbounded, ?_, ?_⟩
  · exact hnumbers ▸ ofJson_toJson.2 j hbounded
  · exact ofJson_toJson.1 (list [number (.ofBits 0x7FF8000000000000), number half])

end Stencil
