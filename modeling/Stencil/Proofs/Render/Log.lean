import Stencil.Engine
import Stencil.Proofs.Render.Depth
import Stencil.Proofs.Render.Strictness

/-!
# What a render logs

A render that is asked to logs each substitution at once, so its log is in the order of evaluation,
while its report lists the same substitutions in the order of the source. Logging has no part in the
script of a render nor in what the actions come to (`perform_reportDegradations`), and the log is
read off the substitutions (`Template.events_render`), also where the render fails and there is no
report. `Template.render_log` says so for the two ways in which a template is rendered: by itself,
and under its name by an engine, which tells of the render as such too.
-/

namespace Stencil

/-! ## Warnings in a log -/

namespace Event

/-- The place that is told with the event. -/
def offset (e : Event) : Nat :=
  match Bindings.get? e.fields "offset" with
  | some (.int place) => place.toNat
  | _ => 0

/-- The text of the event and the place it is about. -/
def line (e : Event) : String × Nat := (e.message, e.offset)

def warnings (events : List Event) : List Event := events.filter (·.level = .warn)

/-- In the order of their places; at one place in the order given. -/
def byOffset (events : List Event) : List Event := events.mergeSort fun a b => a.offset ≤ b.offset

end Event

/-- The text of the substitution and the place it is about. -/
def Degradation.line (d : Degradation) : String × Nat := (d.message, d.span.start)

theorem Event.offset_degraded (template : Option String) (d : Degradation) :
    (degraded template d).offset = d.span.start := rfl

section

variable (template : Option String) (ds : List Degradation)

theorem Event.map_line_degraded :
    (ds.map (degraded template)).map line = ds.map Degradation.line := by
  rw [List.map_map]
  rfl

theorem Event.warnings_degraded :
    warnings (ds.map (degraded template)) = ds.map (degraded template) := by
  refine List.filter_eq_self.mpr fun event hevent => ?_
  obtain ⟨d, -, rfl⟩ := List.mem_map.mp hevent
  rfl

/-- Sorting a log is sorting what it tells of. -/
theorem Event.byOffset_degraded :
    byOffset (ds.map (degraded template)) =
      (Degradation.inSourceOrder ds).map (degraded template) := by
  refine (List.map_mergeSort fun a _ b _ => ?_).symm
  rw [offset_degraded, offset_degraded]

end

/-! ## The log of a render -/

/-- Whether substitutions are logged does not change what a script comes to. -/
theorem perform_reportDegradations (o : Options) (on : Bool) (actions : List Action) :
    perform { o with reportDegradations := on } actions = perform o actions := by
  induction actions with
  | nil => rfl
  | cons action rest ih =>
      rw [perform_cons, perform_cons, ih]
      cases action <;> rfl

namespace Template

variable (t : Template) (context : Context) (options : Options) (name : Option String)

theorem events_render :
    (t.render context options name).events =
      if options.reportDegradations then
        (t.degradations context options name).map (.degraded name)
      else [] := by
  rw [render_eq, degradations_eq]
  dsimp only
  -- The events of one substitution are the same all through the render.
  have hevents : (Progress.start options name).eventsOf = fun d =>
      if options.reportDegradations then [.degraded name d] else [] := rfl
  rw [hevents]
  split
  · exact List.map_eq_flatMap.symm
  · simp

theorem degradations_name (name' : Option String) :
    t.degradations context options name = t.degradations context options name' := by
  rw [degradations_eq, degradations_eq]

theorem degradations_of_strict (h : options.strict = true) :
    t.degradations context options name = [] := by
  have hoptions : options = { options with strict := true } := by rw [← h]
  rw [degradations_eq, yield, hoptions]
  exact degradations_perform_strict options _

theorem events_render_mono {depth depth' : Nat} (h : depth ≤ depth') :
    (t.render context { options with maxDepth := depth } name).events <+:
      (t.render context { options with maxDepth := depth' } name).events := by
  have hcut := Node.cutsShort_scriptAll t.nodes depth depth' h (.ofContext context)
  have hprefix := degradations_perform_cutShort options depth depth' hcut
  rw [events_render, events_render]
  dsimp only
  split
  · rw [degradations_eq, degradations_eq]
    exact hprefix.map _
  · exact List.prefix_rfl

/-! ## Ways to render -/

/-- A template is rendered by itself, or by its name in an engine that has it. -/
inductive Way (t : Template) where
  | inline
  | named (engine : Engine) (name : String) (h : engine.store.get? name = some t)

namespace Way

variable {t}

def report (w : t.Way) (context : Context) (options : Options) : Outcome TemplateError Report :=
  match w with
  | inline => (t.render context options none).mapError .render
  | named engine name _ => engine.reportWith options name context

/-- The name that the render knows. -/
def name? : t.Way → Option String
  | inline => none
  | named _ name _ => some name

/-- What is told before the render. -/
def announcement (options : Options) : t.Way → List Event
  | inline => []
  | named _ name _ => [.rendering name options.strict]

theorem report_eq (w : t.Way) :
    w.report context options =
      ⟨(t.render context options w.name?).result.mapError .render,
        w.announcement options ++ (t.render context options w.name?).events⟩ := by
  cases w with
  | inline => rfl
  | named engine name h =>
      show engine.reportWith options name context = _
      unfold Engine.reportWith Store.require
      rw [h]
      rfl

theorem warnings_announcement (w : t.Way) :
    Event.warnings (w.announcement options) = [] := by
  cases w <;> rfl

/-- An engine adds nothing to the warnings of a render. -/
theorem warnings_report (w : t.Way) :
    Event.warnings (w.report context options).events =
      if options.reportDegradations then
        (t.degradations context options none).map (.degraded w.name?)
      else [] := by
  rw [report_eq]
  dsimp only
  rw [Event.warnings, List.filter_append, ← Event.warnings, warnings_announcement,
    List.nil_append, events_render]
  split
  · rw [t.degradations_name context options w.name? none]
    exact Event.warnings_degraded ..
  · rfl

end Way

/-- Logging is inert: with the log on or off, and with a name or without, a render has one result.
It is faithful too: a log that is off holds no warning, and neither does that of a strict render; a
log that is on has every substitution, in the order in which they are made, and sorted by the places
it has the warnings of the report. A lower depth limit cuts the log short. -/
theorem render_log :
    (∀ (w w' : t.Way) (on : Bool),
      (w.report context { options with reportDegradations := on }).result =
        (w'.report context options).result) ∧
    ∀ w : t.Way,
      let run := w.report context options
      (options.reportDegradations = false → Event.warnings run.events = []) ∧
      (options.reportDegradations = true →
        (Event.warnings run.events).map Event.line =
            (t.degradations context options none).map Degradation.line ∧
          ∀ report, run.result = .ok report →
            (Event.byOffset (Event.warnings run.events)).map Event.line =
              report.warnings.map Degradation.line) ∧
      (options.strict = true → Event.warnings run.events = []) ∧
      ∀ depth depth', depth ≤ depth' →
        (w.report context { options with maxDepth := depth }).events <+:
          (w.report context { options with maxDepth := depth' }).events := by
  refine ⟨fun w w' on => ?_, fun w => ?_⟩
  · rw [Way.report_eq, Way.report_eq]
    dsimp only
    rw [result_render, result_render, yield, yield, perform_reportDegradations]
  · intro run
    have hwarnings : Event.warnings run.events = _ := w.warnings_report context options
    refine ⟨fun hoff => ?_, fun hon => ?_, fun hstrict => ?_, fun depth depth' hdepth => ?_⟩
    · rw [hwarnings, hoff]
      rfl
    · rw [if_pos hon] at hwarnings
      rw [hwarnings]
      refine ⟨Event.map_line_degraded .., fun report hreport => ?_⟩
      have hreport : (w.report context options).result = .ok report := hreport
      rw [Way.report_eq, result_render] at hreport
      rw [Event.byOffset_degraded, Event.map_line_degraded, degradations_eq]
      cases hyield : (t.yield context options).report with
      | error e =>
          rw [hyield] at hreport
          cases hreport
      | ok report' =>
          rw [hyield] at hreport
          obtain rfl := Except.ok.inj hreport
          rw [Yield.warnings_of_report hyield]
    · rw [hwarnings, degradations_of_strict t context options none hstrict]
      exact ite_self []
    · rw [Way.report_eq, Way.report_eq]
      exact (List.prefix_append_right_inj _).mpr
        (events_render_mono t context options w.name? hdepth)

/-- The second row makes a substitution about an earlier place than that of the first row. With one
level of blocks the render ends there. -/
theorem render_log_rows :
    ∃ t, Template.compile ("\x7b\x7b#each rows\x7d\x7d\x7b\x7b#if deep\x7d\x7d\x7b\x7bx\x7d\x7d" ++
        "\x7b\x7b/if\x7d\x7d\x7b\x7by\x7d\x7d\x7b\x7b/each\x7d\x7d") = .ok t ∧
      ∃ w : t.Way,
        let context : Context := ⟨[("rows", .list [.null, .map [("deep", .bool true)]])]⟩
        let logged (options : Options) := Event.warnings (w.report context options).events
        let x := ("missing variable 'x'", 26)
        let y := ("missing variable 'y'", 38)
        w.name? = some "rows" ∧
        (logged { reportDegradations := true }).map Event.line = [y, x, y] ∧
        (Event.byOffset (logged { reportDegradations := true })).map Event.line = [x, y, y] ∧
        (w.report context { reportDegradations := true }).result =
          (w.report context {}).result ∧
        logged {} = [] ∧
        logged { reportDegradations := true, strict := true } = [] ∧
        (w.report context { reportDegradations := true, maxDepth := 1 }).events <+:
          (w.report context { reportDegradations := true, maxDepth := 2 }).events := by
  let source := "\x7b\x7b#each rows\x7d\x7d\x7b\x7b#if deep\x7d\x7d\x7b\x7bx\x7d\x7d" ++
    "\x7b\x7b/if\x7d\x7d\x7b\x7by\x7d\x7d\x7b\x7b/each\x7d\x7d"
  let t : Template := ⟨source, [.block .iteration ⟨"rows", ⟨8, 12⟩⟩
    [.block .conditional ⟨"deep", ⟨20, 24⟩⟩ [.interpolation "x" ⟨26, 31⟩] ⟨14, 38⟩,
      .interpolation "y" ⟨38, 43⟩] ⟨0, 52⟩]⟩
  have hcompile : compile source = .ok t := by cbv
  let w : t.Way := .named { store := ⟨[("rows", t)]⟩ } "rows" rfl
  let context : Context := ⟨[("rows", .list [.null, .map [("deep", .bool true)]])]⟩
  have hyield : t.yield context { reportDegradations := true } = ⟨"",
      [⟨.missing, "y", ⟨38, 43⟩⟩, ⟨.missing, "x", ⟨26, 31⟩⟩, ⟨.missing, "y", ⟨38, 43⟩⟩], none⟩ := by
    cbv
  have hreport : (w.report context { reportDegradations := true }).result = .ok ⟨"",
      [⟨.missing, "x", ⟨26, 31⟩⟩, ⟨.missing, "y", ⟨38, 43⟩⟩, ⟨.missing, "y", ⟨38, 43⟩⟩]⟩ := by
    rw [Way.report_eq, result_render, hyield]
    cbv
  have hlaw := t.render_log context
  obtain ⟨hlog, hsorted⟩ := ((hlaw { reportDegradations := true }).2 w).2.1 rfl
  refine ⟨t, hcompile, w, rfl, ?_, (hsorted _ hreport).trans (by decide), (hlaw {}).1 w w true,
    ((hlaw {}).2 w).1 rfl, ((hlaw { reportDegradations := true, strict := true }).2 w).2.2.1 rfl,
    ((hlaw { reportDegradations := true }).2 w).2.2.2 1 2 (by decide)⟩
  rw [degradations_eq, hyield] at hlog
  exact hlog.trans (by decide)

end Template

end Stencil
