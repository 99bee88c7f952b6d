import Stencil.Proofs.Render.Concatenation
import Stencil.Proofs.Survey.Statistics
import Stencil.Proofs.Template.Tiling

/-!
# What warnings are about

A substitution knows its path and a span, and both are those of the directive that it was made for:
of an interpolation the span is the whole marker, of a loop it is the path in the opener
(`Degradation.Located`). The directives of a template start at different places, one after the
other, so the start of a span tells which of them a warning is about
(`Spells.eq_of_start_eq`). Whatever a render does with a template, it makes no other substitutions,
and it fails with no other paths, than those of its directives; `Template.render_warnings` puts this
together for whole renders, and ties the paths to those that a survey of the raw text lists.
-/

namespace Stencil

/-! ## Directives and their substitutions -/

/-- The substitution that a directive makes when its data cannot be used. A conditional makes none:
data that is missing is not truthy. -/
def Node.substitution? : Node → Option Degradation
  | .literal _ _ => none
  | .interpolation path span => some ⟨.missing, path, span⟩
  | .block .iteration subject _ _ => some ⟨.notIterable, subject.path, subject.span⟩
  | .block _ _ _ _ => none

theorem Node.path?_of_substitution? {node : Node} {d : Degradation}
    (h : node.substitution? = some d) : node.path? = some d.path := by
  cases node with
  | literal text span => cases h
  | interpolation path span =>
      obtain rfl := Option.some.inj h
      rfl
  | block kind subject body span =>
      cases kind with
      | conditional | negation => cases h
      | iteration =>
          obtain rfl := Option.some.inj h
          rfl

mutual

theorem Node.degradations_eq : ∀ node : Node,
    node.degradations = node.subnodes.filterMap Node.substitution?
  | .literal _ _ => rfl
  | .interpolation _ _ => rfl
  | .block .conditional _ body _ => Node.degradationsAll_eq body
  | .block .negation _ body _ => Node.degradationsAll_eq body
  | .block .iteration subject body span => by
      rw [Node.degradations, Node.subnodes, List.filterMap_cons_some (by rfl),
        Node.degradationsAll_eq body]

/-- The substitutions of a forest are those of its directives, in the order of the source. -/
theorem Node.degradationsAll_eq : ∀ nodes : List Node,
    Node.degradationsAll nodes = (Node.subnodesAll nodes).filterMap Node.substitution?
  | [] => rfl
  | node :: rest => by
      rw [Node.degradationsAll, Node.subnodesAll, List.filterMap_append, Node.degradations_eq node,
        Node.degradationsAll_eq rest]

end

/-! ## One directive for each place -/

section

variable {start stop : Nat} {segments : List Segment} {nodes : List Node}

/-- The substitutions of a forest are about places further and further on. -/
theorem Spells.pairwise_degradationsAll (h : Spells start segments nodes stop) :
    (Node.degradationsAll nodes).Pairwise fun d d' => d.span.start < d'.span.start := by
  induction h with
  | nil => exact .nil
  | text _ _ ih => exact ih
  | interpolation _ hmid hrest ih =>
      refine List.pairwise_cons.mpr ⟨fun d hd => ?_, ih⟩
      have hbound := (hrest.bounds_degradationsAll d hd).1
      simp only
      omega
  | @block start bodyStart bodyStop mid stop inner inner' kind path bodySegments segments body nodes
      hopen _ hbody _ hmid hrest ihbody ih =>
      rw [Node.degradationsAll]
      -- The subject lies before the body, and the body before the nodes after the block.
      have hcross : ∀ d ∈ Node.degradationsAll body, ∀ d' ∈ Node.degradationsAll nodes,
          d.span.start < d'.span.start := by
        intro d hd d' hd'
        have hd := (hbody.bounds_degradationsAll d hd).2
        have hd' := (hrest.bounds_degradationsAll d' hd').1
        omega
      cases kind with
      | conditional | negation => exact List.pairwise_append.mpr ⟨ihbody, ih, hcross⟩
      | iteration =>
          refine List.pairwise_append.mpr ⟨List.pairwise_cons.mpr ⟨?_, ihbody⟩, ih, ?_⟩
          · intro d hd
            have hd := (hbody.bounds_degradationsAll d hd).1
            simp only
            omega
          · intro d hd d' hd'
            rcases List.mem_cons.mp hd with rfl | hd
            · have hbodyStop := hbody.stop_eq
              have hd' := (hrest.bounds_degradationsAll d' hd').1
              simp only
              omega
            · exact hcross d hd d' hd'

/-- Directives whose substitutions start at one place are one directive. -/
theorem Spells.eq_of_start_eq (h : Spells start segments nodes stop) {i j : Nat}
    {d d' : Degradation} (hi : (Node.subnodesAll nodes)[i]?.bind Node.substitution? = some d)
    (hj : (Node.subnodesAll nodes)[j]?.bind Node.substitution? = some d')
    (hstart : d.span.start = d'.span.start) : i = j := by
  have hpairwise := h.pairwise_degradationsAll
  rw [Node.degradationsAll_eq, List.pairwise_filterMap, List.pairwise_iff_getElem] at hpairwise
  obtain ⟨node, hnode, hd⟩ := Option.bind_eq_some_iff.mp hi
  obtain ⟨node', hnode', hd'⟩ := Option.bind_eq_some_iff.mp hj
  obtain ⟨hlt, rfl⟩ := List.getElem?_eq_some_iff.mp hnode
  obtain ⟨hlt', rfl⟩ := List.getElem?_eq_some_iff.mp hnode'
  rcases Nat.lt_trichotomy i j with hij | hij | hij
  · have := hpairwise i j hlt hlt' hij d hd d' hd'
    omega
  · exact hij
  · have := hpairwise j i hlt' hlt hij d' hd' d hd
    omega

theorem Node.exists_index_of_mem {d : Degradation} (h : d ∈ Node.degradationsAll nodes) :
    ∃ i : Nat, (Node.subnodesAll nodes)[i]?.bind Node.substitution? = some d := by
  rw [Node.degradationsAll_eq] at h
  obtain ⟨node, hnode, hd⟩ := List.mem_filterMap.mp h
  obtain ⟨i, hi⟩ := List.mem_iff_getElem?.mp hnode
  exact ⟨i, by rw [hi, Option.bind_some, hd]⟩

end

/-! ## What stands there -/

/-- The source reads `text` in the span, right after `front` and right before `back`. -/
def Span.ReadsBetween (source : String) (span : Span) (front text back : String) : Prop :=
  ∃ before after, source = before ++ front ++ text ++ back ++ after ∧
    span.start = (before ++ front).utf8ByteSize ∧
    span.stop = (before ++ front ++ text).utf8ByteSize

/-- What the source reads where a substitution is about: for missing data the marker that asks for
it, for a loop the path in its opener. -/
inductive Degradation.Located (source : String) : Degradation → Prop
  | missing {path : String} {span : Span} (h : span.Reads source (markerText path)) :
      Located source ⟨.missing, path, span⟩
  | notIterable {path : String} {span : Span} {separator : Char} {blanks : List Char}
      (hseparator : Text.isSeparator separator = true) (hblanks : blanks.all Text.isBlank = true)
      (h : span.ReadsBetween source ("\x7b\x7b#each" ++ String.ofList (separator :: blanks)) path
        "\x7d\x7d") :
      Located source ⟨.notIterable, path, span⟩

theorem Span.Reads.readsBetween {source path : String} {start bodyStart : Nat} {span : Span}
    {separator : Char} {blanks : List Char}
    (hopener : Span.Reads source ⟨start, bodyStart⟩
      (markerText (BlockKind.iteration.openerInner separator blanks path)))
    (hsubject : span.Reads source path) (hstop : span.stop + 2 = bodyStart) :
    span.ReadsBetween source ("\x7b\x7b#each" ++ String.ofList (separator :: blanks)) path
      "\x7d\x7d" := by
  obtain ⟨before, after, hsource, hstart, hbodyStart⟩ := hopener
  obtain ⟨before', after', -, hspanStart, hspanStop⟩ := hsubject
  have hsplit : markerText (BlockKind.iteration.openerInner separator blanks path) =
      "\x7b\x7b#each" ++ String.ofList (separator :: blanks) ++ path ++ "\x7d\x7d" := by
    refine String.toList_injective ?_
    simp [markerText, BlockKind.openerInner, BlockKind.keyword]
  have hclose : ("\x7d\x7d" : String).utf8ByteSize = 2 := rfl
  rw [hsplit] at hsource hbodyStart
  generalize "\x7b\x7b#each" ++ String.ofList (separator :: blanks) = front at hsource hbodyStart ⊢
  simp only [String.utf8ByteSize_append, hclose] at hbodyStart
  refine ⟨before, after, ?_, ?_, ?_⟩
  · rw [hsource]
    simp only [String.append_assoc]
  · rw [String.utf8ByteSize_append]
    omega
  · rw [String.utf8ByteSize_append, String.utf8ByteSize_append]
    omega

/-- In a tiling every directive stands where its substitution says. -/
theorem Tiles.located {source : String} {span : Span} {nodes : List Node}
    (h : Tiles source span nodes) : ∀ d ∈ Node.degradationsAll nodes, d.Located source := by
  induction h with
  | nil => exact fun _ hd => absurd hd List.not_mem_nil
  | literal _ _ _ _ _ ih => exact ih
  | interpolation _ htext _ ih => exact List.forall_mem_cons.mpr ⟨.missing htext, ih⟩
  | @block start bodyStart bodyStop mid stop kind subject body rest separator blanks
      _ hseparator hblanks hopener hsubject hsubjectStop _ _ _ ihbody ih =>
      rw [Node.degradationsAll]
      cases kind with
      | conditional | negation => exact List.forall_mem_append.mpr ⟨ihbody, ih⟩
      | iteration =>
          have hbetween := hopener.readsBetween hsubject hsubjectStop
          exact List.forall_mem_append.mpr
            ⟨List.forall_mem_cons.mpr ⟨.notIterable hseparator hblanks hbetween, ihbody⟩, ih⟩

/-! ## Failures -/

/-- The path that an error is about; the depth limit is about none. -/
def RenderError.path? : RenderError → Option String
  | missing path => some path
  | notIterable path => some path
  | tooDeep _ => none

theorem RenderError.path?_ofDegradation (d : Degradation) :
    (ofDegradation d).path? = some d.path := by
  unfold ofDegradation
  cases d.kind <;> rfl

/-- A run that fails with a path fails at a substitution that it may not make. -/
theorem exists_degrade_of_failure {o : Options} {actions : List Action} {e : RenderError}
    {path : String} (h : (perform o actions).failure = some e) (hpath : e.path? = some path) :
    ∃ d, .degrade d ∈ actions ∧ d.path = path := by
  induction actions with
  | nil => cases h
  | cons action rest ih =>
      rw [perform_cons] at h
      have hlater : (perform o rest).failure = some e →
          ∃ d, .degrade d ∈ action :: rest ∧ d.path = path := by
        intro hrest
        obtain ⟨d, hd, hpath⟩ := ih hrest
        exact ⟨d, List.mem_cons_of_mem _ hd, hpath⟩
      cases action with
      | emit text => exact hlater h
      | overflow =>
          obtain rfl := Option.some.inj h
          cases hpath
      | degrade d =>
          rcases Bool.eq_false_or_eq_true o.strict with hstrict | hstrict
          · rw [Action.yield_degrade_of_strict hstrict] at h
            obtain rfl := Option.some.inj h
            rw [RenderError.path?_ofDegradation] at hpath
            exact ⟨d, List.mem_cons_self .., Option.some.inj hpath⟩
          · rw [Action.yield_degrade_of_lenient hstrict] at h
            exact hlater h

/-! ## Whole renders -/

namespace Template

variable {source : String} {t : Template} {d : Degradation}

theorem located_of_compile (h : compile source = .ok t) (hd : d ∈ Node.degradationsAll t.nodes) :
    d.Located source := by
  obtain ⟨hspells, -⟩ := spells_of_compile h
  have hreads : Span.Reads source ⟨0, source.utf8ByteSize⟩
      (Segment.spellingAll (Segment.ofSource source)) := by
    rw [spellingAll_ofSource hspells.not_mem_unterminated]
    exact .whole source
  exact (hspells.tiles (Segment.wellCut_ofChars source.toList) hreads).located d hd

/-- A survey lists the path of every directive, but for the names that a loop provides. -/
theorem path_of_compile (h : compile source = .ok t) (hd : d ∈ Node.degradationsAll t.nodes) :
    Path.isLoopLocal d.path = true ∨ d.path ∈ (Stats.ofSource source).dataPaths := by
  rw [Node.degradationsAll_eq] at hd
  obtain ⟨node, hnode, hd⟩ := List.mem_filterMap.mp hd
  cases hlocal : Path.isLoopLocal d.path with
  | true => exact .inl rfl
  | false =>
      have hpath := List.mem_filterMap.mpr ⟨node, hnode, Node.path?_of_substitution? hd⟩
      exact .inr ((Stats.mem_dataPaths_iff h).mpr ⟨hpath, hlocal⟩)

/-- The warnings of a render are in the order of the source. Each is about a directive of the
template and its span shows what that directive says there; two that start at one place are about
one directive. Their paths, and those of the errors that end a render in their stead, are names of a
loop or listed by a survey. -/
theorem render_warnings (h : compile source = .ok t) (context : Context) (options : Options)
    (name : Option String) :
    (∀ report, (t.render context options name).result = .ok report →
      report.warnings.Pairwise (fun d d' => d.span.start ≤ d'.span.start) ∧
      (∀ d ∈ report.warnings, d.Located source) ∧
      (∀ d ∈ report.warnings, ∀ d' ∈ report.warnings, d.span.start = d'.span.start →
        d = d' ∧ ∃! i : Nat, (Node.subnodesAll t.nodes)[i]?.bind Node.substitution? = some d) ∧
      ∀ d ∈ report.warnings,
        Path.isLoopLocal d.path = true ∨ d.path ∈ (Stats.ofSource source).dataPaths) ∧
    ∀ e path, (t.render context options name).result = .error e → e.path? = some path →
      Path.isLoopLocal path = true ∨ path ∈ (Stats.ofSource source).dataPaths := by
  obtain ⟨hspells, -⟩ := spells_of_compile h
  rw [result_render]
  refine ⟨fun report hreport => ?_, fun e path herror hpath => ?_⟩
  · rw [Yield.warnings_of_report hreport]
    have hdirective : ∀ d ∈ Degradation.inSourceOrder (t.yield context options).degradations,
        d ∈ Node.degradationsAll t.nodes := fun d hd =>
      mem_degradationsAll ((Degradation.perm_inSourceOrder _).mem_iff.mp hd)
    refine ⟨Degradation.pairwise_inSourceOrder _,
      fun d hd => located_of_compile h (hdirective d hd), fun d hd d' hd' hstart => ?_,
      fun d hd => path_of_compile h (hdirective d hd)⟩
    obtain ⟨i, hi⟩ := Node.exists_index_of_mem (hdirective d hd)
    obtain ⟨i', hi'⟩ := Node.exists_index_of_mem (hdirective d' hd')
    obtain rfl := hspells.eq_of_start_eq hi hi' hstart
    exact ⟨Option.some.inj (hi.symm.trans hi'), i, hi,
      fun j hj => hspells.eq_of_start_eq hj hi rfl⟩
  · obtain ⟨d, hd, rfl⟩ := exists_degrade_of_failure (Yield.failure_of_report herror) hpath
    exact path_of_compile h (Node.within_degradationsAll t.nodes _ _ d hd)

/-- Two rows warn of the same two directives; the loop inside is about a path after a wide blank. -/
theorem render_warnings_rows :
    let source :=
      "ü\x7b\x7b#each rows\x7d\x7d\x7b\x7b#each \u2003tags\x7d\x7d\x7b\x7b/each\x7d\x7d" ++
      "\x7b\x7bname\x7d\x7d\x7b\x7b/each\x7d\x7d"
    let context : Context := ⟨[("rows", .list [.map [("tags", .bool true)], .null])]⟩
    ∃ t, compile source = .ok t ∧
      (t.render context {} none).result = .ok ⟨"ü", [⟨.notIterable, "tags", ⟨27, 31⟩⟩,
        ⟨.notIterable, "tags", ⟨27, 31⟩⟩, ⟨.missing, "name", ⟨42, 50⟩⟩,
        ⟨.missing, "name", ⟨42, 50⟩⟩]⟩ ∧
      Degradation.Located source ⟨.notIterable, "tags", ⟨27, 31⟩⟩ ∧
      Degradation.Located source ⟨.missing, "name", ⟨42, 50⟩⟩ ∧
      (∃! i : Nat, (Node.subnodesAll t.nodes)[i]?.bind Node.substitution? =
        some ⟨.missing, "name", ⟨42, 50⟩⟩) ∧
      "name" ∈ (Stats.ofSource source).dataPaths ∧
      (t.render context { strict := true } none).result = .error (.notIterable "tags") ∧
      "tags" ∈ (Stats.ofSource source).dataPaths := by
  intro source context
  let t : Template := ⟨source, [.literal "ü" ⟨0, 2⟩, .block .iteration ⟨"rows", ⟨10, 14⟩⟩
    [.block .iteration ⟨"tags", ⟨27, 31⟩⟩ [] ⟨16, 42⟩, .interpolation "name" ⟨42, 50⟩]
    ⟨2, 59⟩]⟩
  have hcompile : compile source = .ok t := by cbv
  have hlenient : (t.render context {} none).result = .ok ⟨"ü", [⟨.notIterable, "tags", ⟨27, 31⟩⟩,
      ⟨.notIterable, "tags", ⟨27, 31⟩⟩, ⟨.missing, "name", ⟨42, 50⟩⟩,
      ⟨.missing, "name", ⟨42, 50⟩⟩]⟩ := by
    rw [result_render]
    cbv
  have hstrict : (t.render context { strict := true } none).result =
      .error (.notIterable "tags") := by
    rw [result_render]
    cbv
  obtain ⟨-, hlocated, hsame, hpaths⟩ := (render_warnings hcompile context {} none).1 _ hlenient
  have herror := (render_warnings hcompile context { strict := true } none).2 _ "tags" hstrict rfl
  have hname := hpaths ⟨.missing, "name", ⟨42, 50⟩⟩ (by simp)
  exact ⟨t, hcompile, hlenient, hlocated _ (by simp), hlocated _ (by simp),
    (hsame ⟨.missing, "name", ⟨42, 50⟩⟩ (by simp) _ (by simp) rfl).2,
    hname.resolve_left (by decide), hstrict, herror.resolve_left (by decide)⟩

end Template

end Stencil
