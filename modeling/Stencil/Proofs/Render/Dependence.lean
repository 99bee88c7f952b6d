import Stencil.Proofs.Render.Agreement
import Stencil.Proofs.Render.Likeness
import Stencil.Proofs.Survey.Statistics
import Stencil.Proofs.Value.Sameness

/-!
# What a render depends on

Every look-up of a render is under a path of its template, and leaves the loops under way only
under the root of that path. So two contexts with the same data under the roots of all paths cannot
be told apart (`Node.follows_scriptAll_dependence`). A survey lists the paths of a source but for
those that belong to a loop, whose roots are `this` or reserved names: its data paths are all the
data that is read (`Template.render_congr`).
-/

namespace Stencil

/-! ## The root of a path -/

namespace Path

theorem segments_ne_nil (path : String) : segments path ≠ [] := by
  rw [segments, Ne, List.map_eq_nil_iff]
  exact List.splitOn_ne_nil _ _

theorem root_of_innermost {path : String} (h : isReserved path = true ∨ path = "this") :
    root path = path := by
  rw [root, if_pos (by simpa using h)]

theorem head?_segments {path : String} (hreserved : isReserved path = false)
    (hthis : path ≠ "this") : (segments path).head? = some (root path) := by
  rw [root, if_neg (by simp [hreserved, hthis])]
  cases hsegments : segments path with
  | nil => exact absurd hsegments (segments_ne_nil path)
  | cons first rest => rfl

/-- What lies under `this` has it for its first segment. -/
theorem head?_segments_of_this {path : String} (h : "this.".toList <+: path.toList) :
    (segments path).head? = some "this" := by
  obtain ⟨rest, hrest⟩ := h
  have hpath : path.toList = ['t', 'h', 'i', 's'] ++ '.' :: rest := by
    rw [← hrest]
    rfl
  rw [segments, hpath, List.splitOn_append_cons_self]
  rfl

/-- A path of a loop has a root that no survey lists. -/
theorem root_of_isLoopLocal {path : String} (h : isLoopLocal path = true) :
    root path = "this" ∨ isReserved (root path) = true := by
  rw [isLoopLocal, Bool.or_eq_true, Bool.or_eq_true, decide_eq_true_eq,
    List.isPrefixOf_iff_prefix] at h
  by_cases hreserved : isReserved path = true
  · rw [root_of_innermost (.inl hreserved)]
    exact .inr hreserved
  · by_cases hthis : path = "this"
    · rw [root_of_innermost (.inr hthis)]
      exact .inl hthis
    · have hprefix := h.resolve_left (not_or.mpr ⟨hreserved, hthis⟩)
      have hroot := head?_segments (Bool.not_eq_true _ ▸ hreserved) hthis
      rw [head?_segments_of_this hprefix] at hroot
      exact .inl (Option.some.inj hroot).symm

end Path

/-! ## Scopes with the same data -/

theorem Value.Same.congruent : Value.Congruent Value.Same where
  isNull h := by
    cases h <;> rfl
  isTruthy h := by
    cases h with
    | null => rfl
    | bool value => rfl
    | number value => rfl
    | string value => rfl
    | list h => exact Value.isTruthy_list_congr h
    | map h => exact Value.isTruthy_map_congr h
  items h := by
    cases h with
    | null => exact .none
    | bool value => exact .none
    | number value => exact .none
    | string value => exact .none
    | list h => exact .some h
    | map h => exact .none
  field h name := by
    cases h with
    | null => exact .none
    | bool value => exact .none
    | number value => exact .none
    | string value => exact .none
    | list h => exact .none
    | map h => exact h name
  bool := .bool
  number := .number

section Nodes

variable {keys : String → Prop}

mutual

/-- Where the data under the roots of its paths is the same, a node does the same. -/
theorem Node.follows_script_dependence : ∀ node : Node,
    (∀ path ∈ node.subnodes.filterMap Node.path?, keys (Path.root path)) →
      node.script.Follows (Scope.Alike Value.Same keys) Eq
  | .literal _ _, _ => .emit rfl
  | .interpolation path span, hpaths =>
      .interpolate Value.Same.congruent span
        (fun hs => hs.resolve? Value.Same.congruent (hpaths path (List.mem_singleton_self _)))
        fun _ _ _ hvalue => hvalue.render_eq
  | .block kind subject body _, hpaths => by
      have hsubject : keys (Path.root subject.path) := hpaths _ (List.mem_cons_self ..)
      have hbody := Node.follows_scriptAll_dependence body fun path hpath =>
        hpaths path (List.mem_cons_of_mem _ hpath)
      exact .block (fun _ => Scope.Alike Value.Same keys) false
        Value.Same.congruent (fun hs => hs.resolve? Value.Same.congruent hsubject)
        (fun index length hs hitem => hs.push hitem index length) kind hbody

theorem Node.follows_scriptAll_dependence : ∀ nodes : List Node,
    (∀ path ∈ (Node.subnodesAll nodes).filterMap Node.path?, keys (Path.root path)) →
      (Node.scriptAll nodes).Follows (Scope.Alike Value.Same keys) Eq
  | [], _ => .nil
  | node :: rest, hpaths => by
      rw [Node.subnodesAll, List.filterMap_append] at hpaths
      exact .append
        (Node.follows_script_dependence node fun path hpath =>
          hpaths path (List.mem_append_left _ hpath))
        (Node.follows_scriptAll_dependence rest fun path hpath =>
          hpaths path (List.mem_append_right _ hpath))

end

end Nodes

/-! ## The reported paths are all that is read -/

/-- The keys of a context that a source may read: the roots of its data paths, and those that its
loops would otherwise provide. -/
def Stats.Reads (s : Stats) (key : String) : Prop :=
  key = "this" ∨ Path.isReserved key = true ∨
    ∃ path ∈ s.dataPaths, (Path.segments path).head? = some key

variable {source : String} {t : Template} {c c' : Context}

theorem Stats.reads_root (h : Template.compile source = .ok t) {path : String}
    (hpath : path ∈ (Node.subnodesAll t.nodes).filterMap Node.path?) :
    (Stats.ofSource source).Reads (Path.root path) := by
  cases hlocal : Path.isLoopLocal path with
  | true =>
      rcases Path.root_of_isLoopLocal hlocal with hroot | hroot
      · exact .inl hroot
      · exact .inr (.inl hroot)
  | false =>
      obtain ⟨hthis, -, hreserved⟩ := Path.isLoopLocal_eq_false_iff.mp hlocal
      have hhead : Path.isReserved path = false := decide_eq_false hreserved
      exact .inr (.inr ⟨path, (Stats.mem_dataPaths_iff h).mpr ⟨hpath, hlocal⟩,
        Path.head?_segments hhead hthis⟩)

/-- Contexts with the same data under every key that a source may read are the same to its
template. -/
theorem Template.render_congr (h : Template.compile source = .ok t)
    (hsame : ∀ key, (Stats.ofSource source).Reads key →
      Option.Rel Value.Same (c.get? key) (c'.get? key))
    (options : Options) (name : Option String) :
    t.render c options name = t.render c' options name := by
  have hlike := Node.follows_scriptAll_dependence t.nodes
    (fun _ hpath => Stats.reads_root h hpath) options.maxDepth (Scope.Alike.ofContext hsame)
  rw [Template.render_eq, Template.render_eq, Template.yield, Template.yield,
    Action.LikeAll.eq hlike]

/-- A binding that no path leads to is dropped, and the fields of an element are bound in another
order. -/
theorem Template.render_congr_dropped :
    ∃ (t : Template) (c c' : Context),
      Template.compile ("\x7b\x7b#each rows\x7d\x7d\x7b\x7bname\x7d\x7d" ++
        "\x7b\x7b/each\x7d\x7d\x7b\x7b@index\x7d\x7d") = .ok t ∧
      c.get? "rows" = some (.list [.map [("name", .string "a"), ("id", .string "b")]]) ∧
      c'.get? "rows" = some (.list [.map [("id", .string "b"), ("name", .string "a")]]) ∧
      c.get? "other" = some (.bool true) ∧ c'.get? "other" = none ∧
      t.render c {} none = t.render c' {} none ∧
      (t.render c' {} none).result = .ok ⟨"a!", []⟩ := by
  let source := "\x7b\x7b#each rows\x7d\x7d\x7b\x7bname\x7d\x7d" ++
    "\x7b\x7b/each\x7d\x7d\x7b\x7b@index\x7d\x7d"
  let t : Template := ⟨source, [.block .iteration ⟨"rows", ⟨8, 12⟩⟩
    [.interpolation "name" ⟨14, 22⟩] ⟨0, 31⟩, .interpolation "@index" ⟨31, 41⟩]⟩
  let row : Value := .map [("name", .string "a"), ("id", .string "b")]
  let row' : Value := .map [("id", .string "b"), ("name", .string "a")]
  let c : Context :=
    ⟨[("other", .bool true), ("rows", .list [row]), ("@index", .string "!")]⟩
  let c' : Context := ⟨[("rows", .list [row']), ("@index", .string "!")]⟩
  have hcompile : Template.compile source = .ok t := by cbv
  have hrow : row.Same row' := by
    refine .map fun name => ?_
    simp only [Bindings.get?_cons, Bindings.get?_nil]
    by_cases hname : name = "name"
    · subst hname
      exact .some (.string "a")
    · by_cases hid : name = "id"
      · subst hid
        exact .some (.string "b")
      · simp only [hname, hid, if_false]
        exact .none
  have hother : ¬(Stats.ofSource source).Reads "other" := by
    have hpaths : (Stats.ofSource source).dataPaths = ["name", "rows"] := by cbv
    rw [Stats.Reads, hpaths]
    decide
  have hsame : ∀ key, (Stats.ofSource source).Reads key →
      Option.Rel Value.Same (c.get? key) (c'.get? key) := by
    intro key hkey
    have hne : key ≠ "other" := by
      rintro rfl
      exact hother hkey
    rw [Context.get?, Context.get?]
    simp only [Bindings.get?_cons, Bindings.get?_nil, hne, if_false, c, c']
    split
    · exact .some (.list (.cons hrow .nil))
    · split
      · exact .some (.refl _)
      · exact .none
  have hrender : (t.render c' {} none).result = .ok ⟨"a!", []⟩ := by
    rw [Template.result_render]
    cbv
  exact ⟨t, c, c', hcompile, rfl, rfl, rfl, rfl,
    Template.render_congr hcompile hsame {} none, hrender⟩

end Stencil
