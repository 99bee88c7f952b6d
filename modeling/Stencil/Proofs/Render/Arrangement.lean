import Stencil.Proofs.Render.Dependence
import Stencil.Proofs.Store.Registration

/-!
# The order of bindings

Contexts, maps and stores bind names, and the order in which they happen to keep their entries is
never shown. Whatever was bound in whatever order, only the last value of each name counts
(`Bindings.get?_ofEntries`), and entries may change places (`Bindings.get?_perm`); so there are many
contexts with the same data, and all of them render alike, since data is compared up to the order in
maps by `Value.Same`. Text is made of ascending keys only, at every level
(`Value.keysAscending_toJson`), and a store lists its names the same, whenever each was registered.
`order_irrelevant` collects this.
-/

namespace Stencil

/-! ## Ascending lists -/

namespace Text

theorem orderedSet_congr {texts texts' : List String}
    (h : ∀ text, text ∈ texts ↔ text ∈ texts') : orderedSet texts = orderedSet texts' := by
  refine (ascending_orderedSet texts).eq_of_mem_iff (ascending_orderedSet texts') fun text => ?_
  rw [mem_orderedSet, mem_orderedSet]
  exact h text

variable {α : Type}

theorem mem_of_mem_insertOrdered {key : String} {value : α} {entries : List (String × α)}
    {entry : String × α} (h : entry ∈ insertOrdered key value entries) :
    entry = (key, value) ∨ entry ∈ entries := by
  induction entries with
  | nil => exact .inl (List.mem_singleton.mp h)
  | cons first rest ih =>
      obtain ⟨k, v⟩ := first
      rw [insertOrdered] at h
      split at h
      · exact List.mem_cons.mp h
      · split at h
        · exact (List.mem_cons.mp h).imp_right (List.mem_cons_of_mem _)
        · rcases List.mem_cons.mp h with rfl | h
          · exact .inr (List.mem_cons_self ..)
          · exact (ih h).imp_right (List.mem_cons_of_mem _)

theorem mem_of_mem_ordered {entries : List (String × α)} {entry : String × α}
    (h : entry ∈ ordered entries) : entry ∈ entries := by
  induction entries with
  | nil => exact h
  | cons first rest ih =>
      rcases mem_of_mem_insertOrdered h with rfl | h
      · exact List.mem_cons_self ..
      · exact List.mem_cons_of_mem _ (ih h)

end Text

/-! ## Entries in any order -/

namespace Bindings

variable {α : Type}

theorem get?_foldl_insert (entries : List (String × α)) (b : Bindings α) (name : String) :
    (entries.foldl (fun b (k, v) => b.insert k v) b).get? name =
      (entries.reverse.lookup name).or (b.get? name) := by
  induction entries generalizing b with
  | nil => rfl
  | cons entry rest ih =>
      obtain ⟨k, v⟩ := entry
      rw [List.foldl_cons, ih, get?_insert, List.reverse_cons, List.lookup_append, Option.or_assoc]
      by_cases hname : name = k
      · subst hname
        rw [if_pos rfl, List.lookup_cons_self, Option.some_or]
      · rw [if_neg hname, List.lookup_cons, beq_eq_false_iff_ne.mpr hname]
        rfl

/-- Of the values bound to a name the last one counts. -/
theorem get?_ofEntries (entries : List (String × α)) (name : String) :
    (ofEntries entries).get? name = entries.reverse.lookup name := by
  have hfold := get?_foldl_insert entries [] name
  rwa [get?_nil, Option.or_none] at hfold

theorem mem_of_get?_ofEntries {entries : List (String × α)} {name : String} {value : α}
    (h : (ofEntries entries).get? name = some value) : (name, value) ∈ entries := by
  rw [get?_ofEntries, List.lookup_eq_some_iff] at h
  obtain ⟨before, after, heq, -⟩ := h
  exact List.mem_reverse.mp (heq ▸ List.mem_append_cons_self)

theorem get?_map {β : Type} (f : α → β) (b : Bindings α) (name : String) :
    get? (b.map fun (name, value) => (name, f value)) name = (b.get? name).map f := by
  induction b with
  | nil => rfl
  | cons entry rest ih =>
      obtain ⟨k, v⟩ := entry
      rw [List.map_cons, get?_cons, get?_cons, ih]
      split <;> rfl

theorem get?_eq_some_iff_mem {b : Bindings α} (h : b.names.Nodup) {name : String} {value : α} :
    b.get? name = some value ↔ (name, value) ∈ b := by
  induction b with
  | nil => simp
  | cons entry rest ih =>
      obtain ⟨k, v⟩ := entry
      obtain ⟨hk, hrest⟩ := List.nodup_cons.mp h
      rw [get?_cons, List.mem_cons, Prod.mk.injEq]
      by_cases hname : name = k
      · subst hname
        have hnot : (name, value) ∉ rest := fun hmem => hk (List.mem_map.mpr ⟨_, hmem, rfl⟩)
        rw [if_pos rfl, Option.some.injEq]
        exact ⟨fun hv => .inl ⟨rfl, hv.symm⟩, fun hmem => (hmem.resolve_right hnot).2.symm⟩
      · rw [if_neg hname, ih hrest]
        exact ⟨.inr, fun hmem => hmem.resolve_left fun heq => hname heq.1⟩

/-- Entries under different names may stand in any order. -/
theorem get?_perm {b b' : Bindings α} (h : b.Perm b') (hnodup : b.names.Nodup) (name : String) :
    b.get? name = b'.get? name := by
  have hnodup' : b'.names.Nodup := (h.map Prod.fst).nodup_iff.mp hnodup
  refine Option.ext fun value => ?_
  rw [get?_eq_some_iff_mem hnodup, get?_eq_some_iff_mem hnodup', h.mem_iff]

theorem lookup_eq_get? (b : Bindings α) (name : String) :
    b.lookup name = b.get? name := by
  induction b with
  | nil => rfl
  | cons entry rest ih =>
      obtain ⟨k, v⟩ := entry
      rw [List.lookup_cons, get?_cons, ih]
      by_cases hname : name = k
      · rw [if_pos hname, beq_iff_eq.mpr hname]
      · rw [if_neg hname, beq_eq_false_iff_ne.mpr hname]

/-- Bindings made under different names are all there. -/
theorem get?_ofEntries_of_nodup {b : Bindings α} (h : b.names.Nodup) (name : String) :
    (ofEntries b).get? name = b.get? name := by
  rw [get?_ofEntries, lookup_eq_get?, get?_perm (List.reverse_perm b).symm h]

end Bindings

/-! ## Contexts with the same data -/

/-- The context that comes about when values are bound one after the other. -/
def Context.ofEntries (entries : List (String × Value)) : Context :=
  entries.foldl (fun c (name, value) => c.insert name value) .empty

theorem Context.bindings_ofEntries (entries : List (String × Value)) :
    (ofEntries entries).bindings = .ofEntries entries :=
  (List.foldl_hom Context.bindings fun _ _ => rfl).symm

/-- The contexts bind the same names, to the same data. -/
def Context.Same (c c' : Context) : Prop :=
  ∀ name, Option.Rel Value.Same (c.get? name) (c'.get? name)

theorem Value.Same.refl_option : ∀ found : Option Value, Option.Rel Value.Same found found
  | none => .none
  | some value => .some (.refl value)

theorem Context.Same.render_eq {c c' : Context} (h : c.Same c') (t : Template) (options : Options)
    (name : Option String) : t.render c options name = t.render c' options name := by
  have halike : (Scope.ofContext c).Alike Value.Same (fun _ => True) (Scope.ofContext c') :=
    .ofContext fun key _ => h key
  have hlike :=
    Node.follows_scriptAll_dependence t.nodes (fun _ _ => trivial) options.maxDepth halike
  rw [Template.render_eq, Template.render_eq, Template.yield, Template.yield,
    Action.LikeAll.eq hlike]

/-! ## Keys in text -/

/-- In every object, at every level, the keys are in strictly ascending order. -/
inductive Json.KeysAscending : Json → Prop
  | null : KeysAscending null
  | bool (value : Bool) : KeysAscending (bool value)
  | int (value : Int) : KeysAscending (int value)
  | float (value : Binary64) : KeysAscending (float value)
  | string (value : String) : KeysAscending (string value)
  | array {items : List Json} (h : ∀ item ∈ items, item.KeysAscending) :
      KeysAscending (array items)
  | object {fields : List (String × Json)} (hkeys : Text.Ascending (fields.map Prod.fst))
      (h : ∀ field ∈ fields, field.2.KeysAscending) : KeysAscending (object fields)

namespace Value

theorem keysAscending_numberJson (x : Binary64) : (numberJson x).KeysAscending := by
  unfold numberJson
  split
  · exact .int _
  · split
    · exact .float x
    · exact .null

mutual

theorem keysAscending_toJson : ∀ v : Value, v.toJson.KeysAscending
  | .null => .null
  | .bool value => .bool value
  | .number value => keysAscending_numberJson value
  | .string value => .string value
  | .list items => .array (keysAscending_toJsonItems items)
  | .map fields => .object (Text.ascending_keys_ordered _) fun field hfield =>
      keysAscending_toJsonFields fields field (Text.mem_of_mem_ordered hfield)

theorem keysAscending_toJsonItems : ∀ items : List Value,
    ∀ item ∈ toJsonItems items, item.KeysAscending
  | [] => fun _ hitem => absurd hitem List.not_mem_nil
  | item :: rest => List.forall_mem_cons.mpr
      ⟨keysAscending_toJson item, keysAscending_toJsonItems rest⟩

theorem keysAscending_toJsonFields : ∀ fields : List (String × Value),
    ∀ field ∈ toJsonFields fields, field.2.KeysAscending
  | [] => fun _ hfield => absurd hfield List.not_mem_nil
  | (_, value) :: rest => List.forall_mem_cons.mpr
      ⟨keysAscending_toJson value, keysAscending_toJsonFields rest⟩

end

end Value

/-! ## Names of a store -/

namespace Store

theorem mem_names {s : Store} {name : String} : name ∈ s.names ↔ s.contains name = true := by
  rw [names, Bindings.orderedNames, Text.mem_orderedSet, Bindings.mem_names_iff]
  rfl

theorem names_congr {s s' : Store} (h : ∀ name, s.contains name = s'.contains name) :
    s.names = s'.names := by
  refine Text.orderedSet_congr fun name => ?_
  rw [Bindings.mem_names_iff, Bindings.mem_names_iff]
  exact Bool.eq_iff_iff.mp (h name)

theorem contains_register (s : Store) (name source name' : String) :
    (s.register name source).1.contains name' = true ↔
      s.contains name' = true ∨ name = name' ∧ ∃ t, Template.compile source = .ok t := by
  rw [register]
  cases Template.compile source with
  | error e => simp
  | ok t =>
      show (Bindings.get? _ name').isSome = true ↔ (Bindings.get? _ name').isSome = true ∨ _
      rw [Bindings.get?_insert]
      by_cases hname : name' = name
      · simp [hname]
      · simp [hname, Ne.symm hname]

/-- Registrations leave the names that were there and those whose source compiles. -/
theorem contains_foldl_register (entries : List (String × String)) (s : Store) (name : String) :
    (entries.foldl (fun s (name, source) => (s.register name source).1) s).contains name = true ↔
      s.contains name = true ∨
        ∃ entry ∈ entries, entry.1 = name ∧ ∃ t, Template.compile entry.2 = .ok t := by
  induction entries generalizing s with
  | nil => simp
  | cons entry rest ih =>
      rw [List.foldl_cons, ih, contains_register, or_assoc, List.exists_mem_cons_iff]

end Store

/-! ## Nothing depends on the order -/

/-- Neither renders nor the text and the structured form of values nor the names of a store depend
on the order in which entries are kept or were made. -/
theorem order_irrelevant :
    (∀ (c c' : Context), c.Same c' → ∀ (t : Template) (options : Options) (name : Option String),
      t.render c options name = t.render c' options name) ∧
    (∀ v v' : Value, v.Same v' → v.toJson = v'.toJson ∧ v.render = v'.render) ∧
    (∀ entries entries' : List (String × Value),
      (∀ name, Option.Rel Value.Same (entries.reverse.lookup name)
        (entries'.reverse.lookup name)) →
      (Value.map (Bindings.ofEntries entries)).Same (.map (Bindings.ofEntries entries')) ∧
        (Context.ofEntries entries).Same (.ofEntries entries')) ∧
    (∀ b b' : Bindings Value, b.names.Nodup → b.Perm b' →
      (Value.map b).Same (.map b') ∧ (Context.mk b).Same ⟨b'⟩) ∧
    (∀ fields : Bindings Value, (Value.map fields).render = (Value.map fields).toJson.compact ∧
      (Value.map fields).toJson.KeysAscending) ∧
    (∀ s s' : Store, (∀ name, s.get? name = s'.get? name) → s.names = s'.names) ∧
    ∀ (s : Store) (entries entries' : List (String × String)), entries.Perm entries' →
      (entries.foldl (fun s (name, source) => (s.register name source).1) s).names =
        (entries'.foldl (fun s (name, source) => (s.register name source).1) s).names := by
  refine ⟨fun c c' h => h.render_eq, fun v v' h => ⟨h.toJson_eq v, h.render_eq v⟩, ?_, ?_,
    fun fields => ⟨by rw [Value.render], Value.keysAscending_toJson _⟩, ?_, ?_⟩
  · intro entries entries' h
    have hrel : ∀ name, Option.Rel Value.Same ((Bindings.ofEntries entries).get? name)
        ((Bindings.ofEntries entries').get? name) := by
      intro name
      rw [Bindings.get?_ofEntries, Bindings.get?_ofEntries]
      exact h name
    refine ⟨.map hrel, fun name => ?_⟩
    rw [Context.get?, Context.get?, Context.bindings_ofEntries, Context.bindings_ofEntries]
    exact hrel name
  · intro b b' hnodup hperm
    have hrel : ∀ name, Option.Rel Value.Same (b.get? name) (b'.get? name) := by
      intro name
      rw [Bindings.get?_perm hperm hnodup name]
      exact Value.Same.refl_option _
    exact ⟨.map hrel, hrel⟩
  · intro s s' h
    refine Store.names_congr fun name => ?_
    exact congrArg Option.isSome (h name)
  · intro s entries entries' hperm
    refine Store.names_congr fun name => Bool.eq_iff_iff.mpr ?_
    rw [Store.contains_foldl_register, Store.contains_foldl_register]
    simp only [hperm.mem_iff]

/-- A map inside a map is filled in two orders, and a name is bound twice, first to something else;
a template shows the same text, and a store that is filled in two orders lists the same names. -/
theorem order_irrelevant_nested :
    let inner : Bindings Value := [("é", .bool true), ("z", .string "1"), ("Z", .null)]
    let inner' : Bindings Value := [("Z", .null), ("é", .bool true), ("z", .string "1")]
    let c := Context.ofEntries [("row", .null), ("row", .map inner)]
    let c' := Context.ofEntries [("row", .map inner')]
    let sources := [("b", "x"), ("a", "\x7b\x7b"), ("a", "y"), ("b", "")]
    ∃ t, Template.compile "\x7b\x7brow\x7d\x7d" = .ok t ∧
      t.render c {} none = t.render c' {} none ∧
      (t.render c {} none).result =
        .ok ⟨"\x7b\"Z\":null,\"z\":\"1\",\"é\":true\x7d", []⟩ ∧
      (Value.map inner).toJson.KeysAscending ∧
      (sources.foldl (fun s (name, source) => (s.register name source).1) Store.empty).names =
        (sources.reverse.foldl (fun s (name, source) => (s.register name source).1)
          Store.empty).names := by
  intro inner inner' c c' sources
  obtain ⟨hrender, -, hbuilt, hperm, hjson, -, hstore⟩ := order_irrelevant
  have hinner : (Value.map inner).Same (.map inner') :=
    (hperm inner inner' (by decide) (List.perm_append_singleton _ [_, _])).1
  have hsame : c.Same c' := by
    refine (hbuilt _ _ fun name => ?_).2
    by_cases hname : name = "row"
    · subst hname
      exact .some hinner
    · simp only [List.reverse_cons, List.reverse_nil, List.nil_append, List.cons_append,
        List.lookup_cons, beq_eq_false_iff_ne.mpr hname, List.lookup_nil]
      exact .none
  refine ⟨⟨_, [.interpolation "row" ⟨0, 7⟩]⟩, by cbv, hrender c c' hsame _ {} none, ?_,
    (hjson inner).2, hstore _ _ _ sources.reverse_perm.symm⟩
  rw [Template.result_render]
  cbv

end Stencil
