import Stencil.Proofs.Survey.Directive
import Stencil.Proofs.Text.Order

/-!
# Statistics of what compiles

The statistics are taken from the raw text. Of a source that compiles they tell what its tree tells:
each directive is counted where its block stands, at whatever depth, and the data paths are the
paths of the tree that are not names of a loop.
-/

namespace Stencil

theorem Path.isLoopLocal_eq_false_iff {path : String} :
    Path.isLoopLocal path = false ↔
      path ≠ "this" ∧ ¬"this.".toList <+: path.toList ∧ path.toList.head? ≠ some '@' := by
  rw [isLoopLocal, isReserved, Bool.or_eq_false_iff, Bool.or_eq_false_iff, decide_eq_false_iff_not,
    decide_eq_false_iff_not, ← Bool.not_eq_true (List.isPrefixOf ..), List.isPrefixOf_iff_prefix]
  exact ⟨fun h => ⟨h.1.2, h.2, h.1.1⟩, fun h => ⟨⟨h.2.2, h.1⟩, h.2.1⟩⟩

/-- Only valid paths are read from a source. -/
theorem Spells.isValid_path {start stop : Nat} {segments : List Segment} {nodes : List Node}
    (h : Spells start segments nodes stop) :
    ∀ path ∈ (Node.subnodesAll nodes).filterMap Node.path?, Path.isValid path = true := by
  induction h with
  | nil => exact fun _ hmem => absurd hmem List.not_mem_nil
  | text _ _ ih => exact ih
  | interpolation hread _ _ ih =>
      exact List.forall_mem_cons.mpr ⟨(Marker.read_eq_interpolation_iff.mp hread).2, ih⟩
  | block hopen _ _ _ _ _ ihbody ih =>
      rw [Node.subnodesAll, Node.subnodes, List.cons_append,
        List.filterMap_cons_some (by rfl), List.filterMap_append]
      exact List.forall_mem_cons.mpr ⟨(Marker.read_eq_opener_iff.mp hopen).1,
        List.forall_mem_append.mpr ⟨ihbody, ih⟩⟩

variable {source : String} {t : Template}

theorem Survey.blockCount_of_compile (h : Template.compile source = .ok t)
    (kinds : List BlockKind) :
    blockCount kinds source =
      (Node.subnodesAll t.nodes).countP fun node => ∃ kind ∈ kinds, node.kind? = some kind := by
  rw [blockCount_eq (Template.spells_of_compile h).1, List.countP_filterMap]
  refine List.countP_congr fun node _ => ?_
  cases node.kind? <;> simp

theorem Stats.mem_dataPaths_iff (h : Template.compile source = .ok t) {path : String} :
    path ∈ (Stats.ofSource source).dataPaths ↔
      path ∈ (Node.subnodesAll t.nodes).filterMap Node.path? ∧ Path.isLoopLocal path = false := by
  obtain ⟨hspells, -⟩ := Template.spells_of_compile h
  rw [ofSource, Text.mem_orderedSet, List.mem_filter, Survey.markers_eq hspells.holds,
    Survey.filterMap_mention? hspells, Survey.isDataPath, Bool.and_eq_true, Bool.not_eq_true']
  exact ⟨fun ⟨hmem, _, hlocal⟩ => ⟨hmem, hlocal⟩,
    fun ⟨hmem, hlocal⟩ => ⟨hmem, hspells.isValid_path path hmem, hlocal⟩⟩

/-- The statistics of a source that compiles are those of its nodes. -/
theorem Stats.ofSource_of_compile (h : Template.compile source = .ok t) :
    (Stats.ofSource source).size = source.utf8ByteSize ∧
      (Stats.ofSource source).conditionalCount =
        ((Node.subnodesAll t.nodes).countP fun node =>
          node.kind? = some .conditional ∨ node.kind? = some .negation) ∧
      (Stats.ofSource source).loopCount =
        ((Node.subnodesAll t.nodes).countP fun node => node.kind? = some .iteration) ∧
      (∀ path, path ∈ (Stats.ofSource source).dataPaths ↔
        (∃ node ∈ Node.subnodesAll t.nodes, node.path? = some path) ∧
          path ≠ "this" ∧ ¬"this.".toList <+: path.toList ∧ path.toList.head? ≠ some '@') ∧
      Text.Ascending (Stats.ofSource source).dataPaths := by
  refine ⟨rfl, ?_, ?_, fun path => ?_, Text.ascending_orderedSet _⟩
  · simpa [ofSource] using Survey.blockCount_of_compile h [.conditional, .negation]
  · simpa [ofSource] using Survey.blockCount_of_compile h [.iteration]
  · rw [mem_dataPaths_iff h, List.mem_filterMap, Path.isLoopLocal_eq_false_iff]

/-- Blocks inside each other, with a line break in an opener, a path that is read twice and names of
the loop. -/
theorem Stats.ofSource_of_compile_nested :
    ∃ t, Template.compile ("\x7b\x7b#each a\x7d\x7d\x7b\x7b#if\n\u2003this.b\x7d\x7d" ++
        "\x7b\x7b@index\x7d\x7d\x7b\x7ba\x7d\x7d\x7b\x7b/if\x7d\x7d\x7b\x7b/each\x7d\x7d") = .ok t ∧
      (Stats.ofSource t.source).size = 59 ∧
      (Stats.ofSource t.source).conditionalCount = 1 ∧
      (Stats.ofSource t.source).loopCount = 1 ∧
      "a" ∈ (Stats.ofSource t.source).dataPaths ∧
      "this.b" ∉ (Stats.ofSource t.source).dataPaths ∧
      "@index" ∉ (Stats.ofSource t.source).dataPaths ∧
      Text.Ascending (Stats.ofSource t.source).dataPaths := by
  let source := "\x7b\x7b#each a\x7d\x7d\x7b\x7b#if\n\u2003this.b\x7d\x7d" ++
    "\x7b\x7b@index\x7d\x7d\x7b\x7ba\x7d\x7d\x7b\x7b/if\x7d\x7d\x7b\x7b/each\x7d\x7d"
  let t : Template := ⟨source, [.block .iteration ⟨"a", ⟨8, 9⟩⟩
    [.block .conditional ⟨"this.b", ⟨20, 26⟩⟩
      [.interpolation "@index" ⟨28, 38⟩, .interpolation "a" ⟨38, 43⟩] ⟨11, 50⟩] ⟨0, 59⟩]⟩
  have hcompile : Template.compile source = .ok t := by cbv
  obtain ⟨hsize, hconditional, hloop, hpaths, hascending⟩ := ofSource_of_compile hcompile
  refine ⟨t, hcompile, hsize.trans (by cbv), hconditional.trans (by decide),
    hloop.trans (by decide), (hpaths "a").mpr (by decide), fun hmem => ?_, fun hmem => ?_,
    hascending⟩
  · exact absurd ((hpaths "this.b").mp hmem) (by decide)
  · exact absurd ((hpaths "@index").mp hmem) (by decide)

end Stencil
