import Stencil.Proofs.Render.Relocation
import Stencil.Proofs.Template.Spelling

/-!
# The depth limit

A render that may go less deep follows the same script up to the first block that it has no room
for (`Node.cutsShort_scriptAll`), and so does all it does before it fails there: the limit cuts a
render short, and never makes it take another way. A script overflows only where blocks enclose
each other deeper than there is room (`Node.fits_scriptAll`), however often a loop goes round. Both
together are `Template.render_maxDepth`.
-/

namespace Stencil

/-! ## Scripts with less room -/

/-- The first list is the second, or breaks off with an overflow where the second may go on. -/
inductive Action.CutShort : List Action → List Action → Prop
  | nil : CutShort [] []
  | cons (action : Action) {rest rest' : List Action} (h : CutShort rest rest') :
      CutShort (action :: rest) (action :: rest')
  | overflow (rest actions' : List Action) : CutShort (.overflow :: rest) actions'

namespace Action.CutShort

theorem refl (actions : List Action) : CutShort actions actions := by
  induction actions with
  | nil => exact .nil
  | cons action rest ih => exact .cons action ih

theorem append {first first' second second' : List Action} (h : CutShort first first')
    (h' : CutShort second second') : CutShort (first ++ second) (first' ++ second') := by
  induction h with
  | nil => exact h'
  | cons action _ ih => exact .cons action ih
  | overflow rest actions' => exact .overflow _ _

end Action.CutShort

/-- With less room the script is cut short. -/
def Script.CutsShort (script : Script) : Prop :=
  ∀ room room', room ≤ room' → ∀ scope,
    Action.CutShort (script room scope) (script room' scope)

namespace Script.CutsShort

variable {body : Script}

theorem const (actions : Scope → List Action) : CutsShort fun _ scope => actions scope :=
  fun _ _ _ scope => .refl (actions scope)

theorem append {script script' : Script} (h : script.CutsShort) (h' : script'.CutsShort) :
    CutsShort fun room scope => script room scope ++ script' room scope :=
  fun room room' hroom scope => (h room room' hroom scope).append (h' room room' hroom scope)

theorem nested (h : body.CutsShort) : body.nested.CutsShort := by
  intro room room' hroom scope
  cases room with
  | zero => exact .overflow _ _
  | succ room =>
      cases room' with
      | zero => exact absurd hroom (Nat.not_succ_le_zero room)
      | succ room' => exact h room room' (Nat.le_of_succ_le_succ hroom) scope

theorem inFrames (h : body.CutsShort) (frames : List LoopFrame) :
    (body.inFrames frames).CutsShort := by
  intro room room' hroom scope
  induction frames with
  | nil => exact .nil
  | cons frame rest ih => exact (h room room' hroom (scope.push frame)).append ih

theorem conditional (h : body.CutsShort) (subject : Reference) (expected : Bool) :
    (body.conditional subject expected).CutsShort := by
  intro room room' hroom scope
  simp only [Script.conditional]
  split
  · exact h.nested room room' hroom scope
  · exact .nil

theorem iteration (h : body.CutsShort) (subject : Reference) :
    (body.iteration subject).CutsShort := by
  intro room room' hroom scope
  simp only [Script.iteration]
  split
  · exact .nil
  · exact (h.inFrames _).nested room room' hroom scope
  · exact .refl _

theorem block (h : body.CutsShort) (kind : BlockKind) (subject : Reference) :
    (Script.block kind subject body).CutsShort := by
  cases kind with
  | conditional => exact h.conditional subject true
  | negation => exact h.conditional subject false
  | iteration => exact h.iteration subject

end Script.CutsShort

mutual

theorem Node.cutsShort_script : ∀ node : Node, node.script.CutsShort
  | .literal text _ => .const fun _ => [.emit text]
  | .interpolation path span => .const fun scope => Script.interpolate path span 0 scope
  | .block kind subject body _ => (Node.cutsShort_scriptAll body).block kind subject

theorem Node.cutsShort_scriptAll : ∀ nodes : List Node, (Node.scriptAll nodes).CutsShort
  | [] => .const fun _ => []
  | node :: rest => .append (Node.cutsShort_script node) (Node.cutsShort_scriptAll rest)

end

/-! ## Scripts with enough room -/

/-- With room for `height` levels no block of the script is too deep. -/
def Script.Fits (height : Nat) (script : Script) : Prop :=
  ∀ room scope, height ≤ room → .overflow ∉ script room scope

namespace Script.Fits

variable {height : Nat} {body : Script}

theorem append {height' : Nat} {script script' : Script} (h : script.Fits height)
    (h' : script'.Fits height') :
    Fits (max height height') fun room scope => script room scope ++ script' room scope := by
  intro room scope hroom hmem
  obtain ⟨hroom, hroom'⟩ := Nat.max_le.mp hroom
  rcases List.mem_append.mp hmem with hmem | hmem
  · exact h room scope hroom hmem
  · exact h' room scope hroom' hmem

theorem nested (h : body.Fits height) : body.nested.Fits (height + 1) := by
  intro room scope hroom
  cases room with
  | zero => exact absurd hroom (Nat.not_succ_le_zero height)
  | succ room => exact h room scope (Nat.le_of_succ_le_succ hroom)

theorem inFrames (h : body.Fits height) (frames : List LoopFrame) :
    (body.inFrames frames).Fits height := by
  intro room scope hroom hmem
  obtain ⟨frame, -, hmem⟩ := List.mem_flatMap.mp hmem
  exact h room (scope.push frame) hroom hmem

theorem interpolate (path : String) (span : Span) : (Script.interpolate path span).Fits 0 := by
  intro room scope _ hmem
  rw [Script.interpolate] at hmem
  split at hmem
  · split at hmem <;> simp at hmem
  · simp at hmem

theorem conditional (h : body.Fits height) (subject : Reference) (expected : Bool) :
    (body.conditional subject expected).Fits (height + 1) := by
  intro room scope hroom hmem
  rw [Script.conditional] at hmem
  split at hmem
  · exact h.nested room scope hroom hmem
  · cases hmem

theorem iteration (h : body.Fits height) (subject : Reference) :
    (body.iteration subject).Fits (height + 1) := by
  intro room scope hroom hmem
  rw [Script.iteration] at hmem
  split at hmem
  · cases hmem
  · exact (h.inFrames _).nested room scope hroom hmem
  · simp at hmem

theorem block (h : body.Fits height) (kind : BlockKind) (subject : Reference) :
    (Script.block kind subject body).Fits (height + 1) := by
  cases kind with
  | conditional => exact h.conditional subject true
  | negation => exact h.conditional subject false
  | iteration => exact h.iteration subject

end Script.Fits

mutual

theorem Node.fits_script : ∀ node : Node, node.script.Fits node.height
  | .literal _ _ => fun _ _ _ hmem => by simp [Node.script] at hmem
  | .interpolation path span => .interpolate path span
  | .block kind subject body _ => (Node.fits_scriptAll body).block kind subject

theorem Node.fits_scriptAll : ∀ nodes : List Node,
    (Node.scriptAll nodes).Fits (Node.heightAll nodes)
  | [] => fun _ _ _ hmem => by cases hmem
  | node :: rest => (Node.fits_script node).append (Node.fits_scriptAll rest)

end

/-! ## What scripts with less room come to -/

section Perform

variable (o : Options)

/-- Whether a substitution is an error does not depend on the limit. -/
theorem Action.yield_degrade_maxDepth (d : Degradation) :
    (∃ e, ∀ depth, (degrade d).yield { o with maxDepth := depth } = ⟨"", [], some e⟩) ∨
      ∀ depth, (degrade d).yield { o with maxDepth := depth } = ⟨o.filler d, [d], none⟩ := by
  rcases Bool.eq_false_or_eq_true o.strict with hstrict | hstrict
  · exact .inl ⟨_, fun _ => yield_degrade_of_strict hstrict d⟩
  · exact .inr fun _ => yield_degrade_of_lenient hstrict d

/-- A script that is cut short fails at the limit, or comes to the same. -/
theorem perform_cutShort (depth depth' : Nat) {actions actions' : List Action}
    (h : Action.CutShort actions actions') :
    (perform { o with maxDepth := depth } actions).failure = some (.tooDeep depth) ∨
      perform { o with maxDepth := depth } actions =
        perform { o with maxDepth := depth' } actions' := by
  induction h with
  | nil => exact .inr rfl
  | overflow rest actions' => exact .inl rfl
  | cons action _ ih =>
      rw [perform_cons, perform_cons]
      cases action with
      | emit text =>
          rcases ih with hfails | hsame
          · exact .inl hfails
          · rw [hsame]
            exact .inr rfl
      | overflow => exact .inl rfl
      | degrade d =>
          rcases Action.yield_degrade_maxDepth o d with ⟨e, hyield⟩ | hyield
          · rw [hyield, hyield]
            exact .inr rfl
          · rw [hyield, hyield]
            rcases ih with hfails | hsame
            · exact .inl hfails
            · rw [hsame]
              exact .inr rfl

/-- What is substituted before a script is cut short is substituted without the cut too. -/
theorem degradations_perform_cutShort (depth depth' : Nat) {actions actions' : List Action}
    (h : Action.CutShort actions actions') :
    (perform { o with maxDepth := depth } actions).degradations <+:
      (perform { o with maxDepth := depth' } actions').degradations := by
  induction h with
  | nil => exact List.prefix_rfl
  | overflow rest actions' => exact List.nil_prefix
  | cons action _ ih =>
      rw [perform_cons, perform_cons]
      cases action with
      | emit text => exact ih
      | overflow => exact List.nil_prefix
      | degrade d =>
          rcases Action.yield_degrade_maxDepth o d with ⟨e, hyield⟩ | hyield
          · rw [hyield]
            exact List.nil_prefix
          · rw [hyield, hyield]
            exact (List.prefix_cons_inj d).mpr ih

/-- Only an overflow fails at the limit. -/
theorem overflow_mem_of_failure {actions : List Action} {depth : Nat}
    (h : (perform o actions).failure = some (.tooDeep depth)) : .overflow ∈ actions := by
  induction actions with
  | nil => cases h
  | cons action rest ih =>
      rw [perform_cons] at h
      cases action with
      | emit text => exact List.mem_cons_of_mem _ (ih h)
      | overflow => exact List.mem_cons_self ..
      | degrade d =>
          refine List.mem_cons_of_mem _ (ih ?_)
          obtain ⟨kind, path, span⟩ := d
          rcases Bool.eq_false_or_eq_true o.strict with hstrict | hstrict
          · rw [Action.yield_degrade_of_strict hstrict] at h
            cases kind <;> cases h
          · rw [Action.yield_degrade_of_lenient hstrict] at h
            exact h

end Perform

/-! ## A level further down -/

/-- The error as it is under another depth limit. -/
def RenderError.withLimit (maxDepth : Nat) : RenderError → RenderError
  | tooDeep _ => tooDeep maxDepth
  | e => e

/-- The depth limit is seen in errors only: what room there is has gone into the actions. -/
theorem perform_maxDepth (o : Options) (maxDepth : Nat) (actions : List Action) :
    perform { o with maxDepth } actions =
      { perform o actions with
        failure := (perform o actions).failure.map (RenderError.withLimit maxDepth) } := by
  induction actions with
  | nil => rfl
  | cons action rest ih =>
      rw [perform_cons, ih, perform_cons]
      cases action with
      | emit text => rfl
      | degrade d =>
          obtain ⟨kind, path, span⟩ := d
          cases hstrict : o.strict <;> cases kind <;>
            simp [Action.yield, hstrict, Yield.andThen, Options.filler, RenderError.ofDegradation,
              RenderError.withLimit]
      | overflow => rfl

theorem Yield.report_map_failure (y : Yield) (f : RenderError → RenderError) :
    { y with failure := y.failure.map f }.report = y.report.mapError f := by
  obtain ⟨output, degradations, failure⟩ := y
  cases failure <;> rfl

/-- What the body of a block comes to, in terms of what it comes to by itself with one level
less. -/
theorem report_perform_shift {o : Options} {depth : Nat} (hdepth : o.maxDepth = depth + 1) (n : Nat)
    (actions : List Action) :
    (perform o (actions.map (Action.shift n))).report =
      ((perform { o with maxDepth := depth } actions).report.mapError
        (RenderError.withLimit (depth + 1))).map (Report.shift n) := by
  have hlimit := perform_maxDepth { o with maxDepth := depth } (depth + 1) actions
  rw [← hdepth] at hlimit
  rw [perform_map_shift, Yield.report_map_shift, ← hdepth, ← Yield.report_map_failure]
  exact congrArg (Except.map (Report.shift n)) (congrArg Yield.report hlimit)

/-! ## The law -/

/-- With room for all of its blocks a template never fails at the limit. -/
theorem Template.result_ne_tooDeep {t : Template} {options : Options}
    (h : Node.heightAll t.nodes ≤ options.maxDepth) (context : Context) (name : Option String)
    (depth : Nat) : (t.render context options name).result ≠ .error (.tooDeep depth) := by
  intro herror
  rw [Template.result_render] at herror
  exact Node.fits_scriptAll t.nodes options.maxDepth _ h
    (overflow_mem_of_failure options (Yield.failure_of_report herror))

/-- A lower depth limit only ever cuts a render short: the render fails at that limit, after some of
the substitutions that it would have made, or it is the render with the higher limit. With room for
all blocks of the template it never fails at the limit, and no template has more than `maxNesting`
levels of them. -/
theorem Template.render_maxDepth {source : String} {t : Template}
    (h : Template.compile source = .ok t) (context : Context) (options : Options)
    (name : Option String) :
    (∀ depth depth', depth ≤ depth' →
      let shallow := { options with maxDepth := depth }
      let deep := { options with maxDepth := depth' }
      ((t.render context shallow name).result = .error (.tooDeep depth) ∨
          t.render context shallow name = t.render context deep name) ∧
        t.degradations context shallow name <+: t.degradations context deep name) ∧
      (Node.heightAll t.nodes ≤ options.maxDepth →
        ∀ depth, (t.render context options name).result ≠ .error (.tooDeep depth)) ∧
      Node.heightAll t.nodes ≤ maxNesting ∧
      (maxNesting ≤ options.maxDepth →
        ∀ depth, (t.render context options name).result ≠ .error (.tooDeep depth)) := by
  have hheight : Node.heightAll t.nodes ≤ maxNesting := (Template.spells_of_compile h).2
  refine ⟨?_, fun hroom => result_ne_tooDeep hroom context name, hheight,
    fun hroom => result_ne_tooDeep (hheight.trans hroom) context name⟩
  intro depth depth' hdepth shallow deep
  have hcut := Node.cutsShort_scriptAll t.nodes depth depth' hdepth (.ofContext context)
  rw [Template.degradations_eq, Template.degradations_eq, Template.render_eq, Template.render_eq]
  refine ⟨?_, degradations_perform_cutShort options depth depth' hcut⟩
  rcases perform_cutShort options depth depth' hcut with hfails | hsame
  · exact .inl (Yield.report_of_failure hfails)
  · have hyield : t.yield context shallow = t.yield context deep := hsame
    rw [hyield]
    exact .inr rfl

/-- A loop that is too deep in one context has nothing to go round in another, and then the limit
is not felt. -/
theorem Template.render_maxDepth_skipped :
    ∃ t, Template.compile ("\x7b\x7b#if a\x7d\x7d\x7b\x7bb\x7d\x7d\x7b\x7b#each c\x7d\x7d" ++
        "\x7b\x7b@index\x7d\x7d\x7b\x7b/each\x7d\x7d\x7b\x7b/if\x7d\x7d") = .ok t ∧
      (t.render ⟨[("a", .bool true), ("c", .list [.null])]⟩ { maxDepth := 1 } none).result =
        .error (.tooDeep 1) ∧
      (t.render ⟨[("a", .bool true), ("c", .list [])]⟩ { maxDepth := 2 } none).result =
        .ok ⟨"", [⟨.missing, "b", ⟨9, 14⟩⟩]⟩ ∧
      Node.heightAll t.nodes ≤ 2 ∧
      (∀ context depth,
        (t.render context { maxDepth := 2 } none).result ≠ .error (.tooDeep depth)) ∧
      ∀ context depth,
        (t.render context { maxDepth := 256 } none).result ≠ .error (.tooDeep depth) := by
  let t : Template := ⟨"\x7b\x7b#if a\x7d\x7d\x7b\x7bb\x7d\x7d\x7b\x7b#each c\x7d\x7d" ++
      "\x7b\x7b@index\x7d\x7d\x7b\x7b/each\x7d\x7d\x7b\x7b/if\x7d\x7d",
    [.block .conditional ⟨"a", ⟨6, 7⟩⟩
      [.interpolation "b" ⟨9, 14⟩,
        .block .iteration ⟨"c", ⟨22, 23⟩⟩ [.interpolation "@index" ⟨25, 35⟩] ⟨14, 44⟩] ⟨0, 51⟩]⟩
  have hcompile : Template.compile t.source = .ok t := by cbv
  have hlaw := fun context options => Template.render_maxDepth hcompile context options none
  have hshallow : (t.render ⟨[("a", .bool true), ("c", .list [])]⟩ { maxDepth := 1 } none).result =
      .ok ⟨"", [⟨.missing, "b", ⟨9, 14⟩⟩]⟩ := by
    rw [Template.result_render]
    cbv
  refine ⟨t, hcompile, ?_, ?_, by decide, fun context => ?_, fun context => ?_⟩
  · rw [Template.result_render]
    cbv
  · obtain ⟨herror | hsame, -⟩ :=
      (hlaw ⟨[("a", .bool true), ("c", .list [])]⟩ {}).1 1 2 (by decide)
    · rw [hshallow] at herror
      cases herror
    · exact (congrArg Outcome.result hsame).symm.trans hshallow
  · exact (hlaw context { maxDepth := 2 }).2.1 (by decide)
  · exact (hlaw context { maxDepth := 256 }).2.2.2 (by decide)

end Stencil
