import Stencil.Proofs.Store.Builtin
import Stencil.Proofs.Store.Client
import Stencil.Proofs.Store.Reachable
import Stencil.Proofs.Text.Order

/-!
# What is registered

Only two accesses say anything about what a name stands for: a registration whose source compiles,
and a removal. `lastSource` reads the source of a name off the history of accesses by the last of
these. A store that keeps to it (`Store.Tracks`) still does after any further access
(`Store.Tracks.access`), and it answers every question as the plain map from names to sources would
(`Store.Tracks.refines`).
-/

namespace Stencil

/-! ## Names in bindings -/

namespace Bindings

variable {α : Type} {b : Bindings α} {k name : String}

theorem mem_names_iff : name ∈ b.names ↔ (b.get? name).isSome = true := by
  induction b with
  | nil => simp [names]
  | cons entry rest ih =>
      obtain ⟨k, v⟩ := entry
      rw [get?_cons, names, List.map_cons, List.mem_cons]
      rw [names] at ih
      by_cases hname : name = k
      · rw [if_pos hname]
        exact iff_of_true (.inl hname) rfl
      · rw [if_neg hname, ih]
        exact or_iff_right hname

theorem names_insert (v : α) :
    (b.insert k v).names = if k ∈ b.names then b.names else b.names ++ [k] := by
  induction b with
  | nil => rfl
  | cons entry rest ih =>
      obtain ⟨k', v'⟩ := entry
      rw [insert]
      by_cases hkey : k' = k
      · rw [if_pos hkey, if_pos (by simp [names, hkey])]
        rfl
      · rw [if_neg hkey]
        show k' :: names (Bindings.insert k v rest) = _
        rw [ih]
        have hmem : k ∈ names ((k', v') :: rest) ↔ k ∈ names rest := by
          simp [names, Ne.symm hkey]
        by_cases hrest : k ∈ names rest
        · rw [if_pos hrest, if_pos (hmem.mpr hrest)]
          rfl
        · rw [if_neg hrest, if_neg fun h => hrest (hmem.mp h)]
          rfl

theorem nodup_names_insert (h : b.names.Nodup) (k : String) (v : α) :
    (b.insert k v).names.Nodup := by
  rw [names_insert]
  split
  · exact h
  · rename_i hk
    exact List.nodup_append.mpr ⟨h, List.nodup_singleton k, fun name hname other hother heq => by
      rw [List.mem_singleton.mp hother] at heq
      exact hk (heq ▸ hname)⟩

theorem nodup_names_erase (h : b.names.Nodup) (k : String) : (b.erase k).names.Nodup :=
  h.sublist (List.filter_sublist.map _)

end Bindings

/-- Each name of a list without repetitions is listed once. -/
theorem Text.length_orderedSet {texts : List String} (h : texts.Nodup) :
    (orderedSet texts).length = texts.length := by
  have hnodup : (orderedSet texts).Nodup := (ascending_orderedSet texts).nodup
  exact ((List.perm_ext_iff_of_nodup hnodup h).mpr fun _ => mem_orderedSet).length_eq

/-! ## The last registration -/

/-- What an access says about the source of a name from then on, if it says anything. -/
def Access.settles? (name : String) : Access → Option (Option String)
  | register name' text =>
    match Template.compile text with
    | .ok _ => if name' = name then some (some text) else none
    | .error _ => none
  | unregister name' => if name' = name then some none else none
  | _ => none

/-- The map from names to sources after an access. -/
def Access.update (known : String → Option String) (access : Access) : String → Option String :=
  fun name => (access.settles? name).getD (known name)

section

variable (known : String → Option String) (name : String) {text : String}

theorem Access.update_register_of_ok {t : Template} (h : Template.compile text = .ok t) :
    (register name text).update known =
      fun name' => if name' = name then some text else known name' := by
  funext name'
  rw [update, settles?, h]
  by_cases hname : name' = name
  · subst hname
    rw [if_pos rfl, if_pos rfl]
    rfl
  · rw [if_neg hname, if_neg (Ne.symm hname)]
    rfl

theorem Access.update_register_of_error {e : ParseError} (h : Template.compile text = .error e) :
    (register name text).update known = known := by
  funext name'
  rw [update, settles?, h]
  rfl

theorem Access.update_unregister :
    (unregister name).update known = fun name' => if name' = name then none else known name' := by
  funext name'
  rw [update, settles?]
  by_cases hname : name' = name
  · subst hname
    rw [if_pos rfl, if_pos rfl]
    rfl
  · rw [if_neg hname, if_neg (Ne.symm hname)]
    rfl

end

/-- The source of a name after the accesses of a history, newest first: the last registration or
removal of the name decides, and without one it is what `known` says. -/
def lastSource (known : String → Option String) (history : List Access) (name : String) :
    Option String :=
  (history.findSome? (Access.settles? name)).getD (known name)

theorem lastSource_cons (known : String → Option String) (access : Access) (history : List Access) :
    lastSource known (access :: history) = access.update (lastSource known history) := by
  funext name
  rw [lastSource, List.findSome?_cons, Access.update]
  cases access.settles? name with
  | none => rfl
  | some source => rfl

/-! ## Stores that keep to a map -/

namespace Store

variable {s : Store} {known : String → Option String}

structure Tracks (s : Store) (known : String → Option String) : Prop where
  compiled : s.Compiled
  source : ∀ name, s.source? name = known name
  nodup : s.templates.names.Nodup

theorem tracks_empty : Tracks .empty fun _ => none where
  compiled _ _ h := by cases h
  source _ := rfl
  nodup := .nil

namespace Tracks

theorem register {source : String} {t : Template} (h : s.Tracks known)
    (hcompile : Template.compile source = .ok t) (name : String) :
    (s.register name source).1.Tracks
      fun name' => if name' = name then some source else known name' := by
  have hstore : (s.register name source).1 = ⟨s.templates.insert name t⟩ := by
    rw [Store.register, hcompile]
  refine ⟨h.compiled.register name source, fun name' => ?_, ?_⟩
  · rw [hstore, source?, get?, Bindings.get?_insert]
    split
    · rw [Option.map_some, (Template.compile_eq_ok_iff.mp hcompile).1]
    · exact h.source name'
  · rw [hstore]
    exact Bindings.nodup_names_insert h.nodup name t

theorem unregister (h : s.Tracks known) (name : String) :
    (s.unregister (ε := TemplateError) name).1.Tracks
      fun name' => if name' = name then none else known name' := by
  refine ⟨h.compiled.unregister name, fun name' => ?_, ?_⟩
  · rw [Store.unregister]
    split
    · rw [source?, get?, Bindings.get?_erase]
      split
      · rfl
      · exact h.source name'
    -- A name that is not there has no source as it is.
    · rename_i hcontains
      split
      · rename_i hname
        subst hname
        rw [source?, Option.map_eq_none_iff]
        exact Option.not_isSome_iff_eq_none.mp hcontains
      · exact h.source name'
  · rw [Store.unregister]
    split
    · exact Bindings.nodup_names_erase h.nodup name
    · exact h.nodup

theorem access (h : s.Tracks known) (access : Access) :
    (s.access access).1.Tracks (access.update known) := by
  cases access with
  | register name text =>
      cases hcompile : Template.compile text with
      | ok t =>
          rw [Access.update_register_of_ok known name hcompile]
          exact h.register hcompile name
      | error e =>
          have hstore : (s.access (.register name text)).1 = s := by
            show (s.register name text).1 = s
            rw [Store.register, hcompile]
          rw [Access.update_register_of_error known name hcompile, hstore]
          exact h
  | unregister name =>
      rw [Access.update_unregister]
      exact h.unregister name
  | contains name => exact h
  | get name => exact h
  | source name => exact h
  | names => exact h
  | size => exact h

/-- Sources under different names, registered one after the other. -/
theorem foldl_register {entries : List (String × String)}
    (hcompile : ∀ entry ∈ entries, ∃ t, Template.compile entry.2 = .ok t)
    (hnodup : (entries.map Prod.fst).Nodup) (h : s.Tracks known) :
    (entries.foldl (fun s (name, source) => (s.register name source).1) s).Tracks
      fun name => (entries.lookup name).or (known name) := by
  induction entries generalizing s known with
  | nil => exact h
  | cons entry rest ih =>
      obtain ⟨name, source⟩ := entry
      obtain ⟨⟨t, ht⟩, hrest⟩ := List.forall_mem_cons.mp hcompile
      obtain ⟨hname, hnodup⟩ := List.nodup_cons.mp hnodup
      have htracks := ih hrest hnodup (h.register ht name)
      -- No later entry is under the name of this one.
      have hlookup : (fun name' => (((name, source) :: rest).lookup name').or (known name')) =
          fun name' => (rest.lookup name').or
            (if name' = name then some source else known name') := by
        funext name'
        by_cases heq : name' = name
        · subst heq
          have hnone : rest.lookup name' = none :=
            List.lookup_eq_none_iff.mpr fun entry hentry =>
              bne_iff_ne.mpr fun heq => hname (List.mem_map.mpr ⟨entry, hentry, heq.symm⟩)
          rw [List.lookup_cons_self, hnone, if_pos rfl]
          rfl
        · rw [List.lookup_cons, beq_eq_false_iff_ne.mpr heq, if_neg heq]
      rw [hlookup]
      exact htracks

end Tracks

theorem tracks_builtin : Tracks .builtin Builtin.source? := by
  have htracks := tracks_empty.foldl_register Builtin.exists_compile (by decide)
  simp only [Option.or_none] at htracks
  exact htracks

end Store

/-! ## What a name that is not there comes to -/

section

variable (e : Engine) (name : String)

theorem Engine.result_report (context : Context) :
    (e.report name context).result =
      match e.store.get? name with
      | some t => (t.render context e.options (some name)).result.mapError .render
      | none => .error (.notFound name) := by
  unfold Engine.report Engine.reportWith Store.require
  cases e.store.get? name with
  | none => rfl
  | some t => rfl

theorem Engine.result_render (context : Context) :
    (e.render name context).result = (e.report name context).result.map Report.output := by
  have hbind : e.render name context = (e.report name context).bind fun r => pure r.output := rfl
  rw [hbind, Outcome.bind]
  cases (e.report name context).result with
  | ok r => rfl
  | error err => rfl

/-- Rendering what is there does not end with a name that is not there. -/
theorem Engine.result_report_eq_notFound_iff (context : Context) :
    (e.report name context).result = .error (.notFound name) ↔ e.store.get? name = none := by
  rw [result_report]
  cases e.store.get? name with
  | none => exact iff_of_true rfl rfl
  | some t =>
      refine iff_of_false (fun h => ?_) (Option.some_ne_none _)
      dsimp only at h
      cases hresult : (t.render context e.options (some name)).result with
      | ok r =>
          rw [hresult] at h
          cases h
      | error err =>
          rw [hresult] at h
          cases h

theorem Engine.result_render_eq_notFound_iff (context : Context) :
    (e.render name context).result = .error (.notFound name) ↔ e.store.get? name = none := by
  rw [result_render, ← result_report_eq_notFound_iff e name context]
  cases (e.report name context).result with
  | ok r => exact iff_of_false (fun h => by cases h) (fun h => by cases h)
  | error err =>
      exact ⟨fun h => congrArg _ (Except.error.inj h), fun h => congrArg _ (Except.error.inj h)⟩

/-- What an engine tells from the source of a name, it tells of every name that is there. -/
theorem Engine.map_source_eq_notFound_iff {α : Type} (f : String → α) :
    (e.source name).map f = .error (.notFound name) ↔ e.store.get? name = none := by
  rw [Engine.source, Store.require]
  cases e.store.get? name with
  | none => exact iff_of_true rfl rfl
  | some t => exact iff_of_false (fun h => by cases h) (Option.some_ne_none _)

end

/-! ## Stores that answer as a map -/

namespace Store

/-- The store answers as the map from names to sources does. -/
structure Refines (s : Store) (known : String → Option String) : Prop where
  /-- An entry has the source of its name, and the nodes that this compiles to. -/
  entry : ∀ name t, s.get? name = some t →
    known name = some t.source ∧ Template.compile t.source = .ok t
  get : ∀ name, (s.get? name).isSome = (known name).isSome
  contains : ∀ name, s.contains name = (known name).isSome
  source : ∀ name, s.source? name = known name
  ascending : Text.Ascending s.names
  mem_names : ∀ name, name ∈ s.names ↔ (known name).isSome = true
  size : s.size = s.names.length
  unregister : ∀ name,
    (s.unregister (ε := TemplateError) name).2.result = .ok (known name).isSome
  registered : ∀ name source t, Template.compile source = .ok t →
    (s.register name source).2.result = .ok ()
  /-- A source that does not compile is refused with its error under the name. -/
  refused : ∀ name source e, Template.compile source = .error e →
    (s.register name source).1 = s ∧
      (s.register name source).2.result = .error (.parse (some name) e) ∧
      (TemplateError.parse (some name) e).message =
        "Parse error: " ++ (name ++ ": " ++ e.message)
  report : ∀ options name context,
    ((Engine.mk s options).report name context).result = .error (.notFound name) ↔
      known name = none
  render : ∀ options name context,
    ((Engine.mk s options).render name context).result = .error (.notFound name) ↔
      known name = none
  validate : ∀ options name,
    (Engine.mk s options).validate name = .error (.notFound name) ↔ known name = none
  stats : ∀ options name,
    (Engine.mk s options).stats name = .error (.notFound name) ↔ known name = none

variable {s : Store} {known : String → Option String}

theorem Tracks.get?_eq_none_iff (h : s.Tracks known) (name : String) :
    s.get? name = none ↔ known name = none := by
  rw [← h.source name, source?, Option.map_eq_none_iff]

theorem Tracks.contains (h : s.Tracks known) (name : String) :
    s.contains name = (known name).isSome := by
  rw [← h.source name, source?, Option.isSome_map]
  rfl

theorem Tracks.refines (h : s.Tracks known) : s.Refines known where
  entry name t hget := by
    refine ⟨?_, h.compiled name t hget⟩
    rw [← h.source name, source?, hget, Option.map_some]
  get := h.contains
  contains := h.contains
  source := h.source
  ascending := Text.ascending_orderedSet _
  mem_names name := by
    rw [names, Bindings.orderedNames, Text.mem_orderedSet, Bindings.mem_names_iff, ← h.contains]
    rfl
  size := by
    rw [names, Bindings.orderedNames, Text.length_orderedSet h.nodup, Bindings.names,
      List.length_map, Store.size]
  unregister name := by
    rw [← h.contains name, Store.unregister]
    cases s.contains name with
    | false => rfl
    | true => rfl
  registered name source t hcompile := by
    rw [Store.register, hcompile]
    rfl
  refused name source e hcompile := by
    rw [Store.register, hcompile]
    exact ⟨rfl, rfl, rfl⟩
  report options name context := by
    rw [Engine.result_report_eq_notFound_iff, ← h.get?_eq_none_iff]
  render options name context := by
    rw [Engine.result_render_eq_notFound_iff, ← h.get?_eq_none_iff]
  validate options name := by
    rw [Engine.validate, Engine.map_source_eq_notFound_iff, ← h.get?_eq_none_iff]
  stats options name := by
    rw [Engine.stats, Engine.map_source_eq_notFound_iff, ← h.get?_eq_none_iff]

end Store

end Stencil
