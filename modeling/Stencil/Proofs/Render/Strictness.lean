import Stencil.Proofs.Render.Report

/-!
# Strict and lenient renders

Strictness does not change what a render tries to do: the strict and the lenient render of a
template follow the same script. They part at its first substitution, which the lenient render
records and the strict one turns into its error. `strict_render_eq` states this for whole
renders: the error is that of the substitution made *first*, which need not be the first one
that the report lists, and without any substitution the two renders agree.
-/

namespace Stencil

section

variable (o : Options)

theorem degradations_perform_strict (actions : List Action) :
    (perform { o with strict := true } actions).degradations = [] := by
  induction actions with
  | nil => rfl
  | cons action rest ih =>
      rw [perform_cons]
      cases action <;> simp [Action.yield, Yield.andThen, ih]

/-- A lenient run fails at the depth limit only. -/
theorem failure_perform_lenient {actions : List Action} {e : RenderError}
    (h : (perform { o with strict := false } actions).failure = some e) :
    e = .tooDeep o.maxDepth := by
  induction actions with
  | nil => cases h
  | cons action rest ih =>
      rw [perform_cons] at h
      cases action with
      | emit text => exact ih h
      | degrade d => exact ih h
      | overflow => exact (Option.some.inj h).symm

/-- Where the lenient run makes no substitution the strict run is the same. -/
theorem perform_strict_of_degradations_eq_nil {actions : List Action}
    (h : (perform { o with strict := false } actions).degradations = []) :
    perform { o with strict := true } actions = perform { o with strict := false } actions := by
  induction actions with
  | nil => rfl
  | cons action rest ih =>
      rw [perform_cons] at h
      cases action with
      | emit text =>
          have hrest := ih h
          rw [perform_cons, perform_cons, hrest]
          rfl
      | degrade d => cases h
      | overflow => rfl

/-- The first substitution of the lenient run is the error of the strict one. -/
theorem failure_perform_strict_of_degradations_eq_cons {actions : List Action} {d : Degradation}
    {ds : List Degradation}
    (h : (perform { o with strict := false } actions).degradations = d :: ds) :
    (perform { o with strict := true } actions).failure = some (.ofDegradation d) := by
  induction actions with
  | nil => cases h
  | cons action rest ih =>
      rw [perform_cons] at h ⊢
      cases action with
      | emit text => exact ih h
      | degrade d' =>
          obtain ⟨rfl, -⟩ := List.cons.inj h
          rfl
      | overflow => cases h

end

/-- A strict render fails with the first substitution that the lenient render makes, in the order
of evaluation, also where the lenient render fails later on; where the lenient render makes none
the two agree. So a strict render succeeds just where the lenient one succeeds without warnings,
and a lenient render can only fail at the depth limit. -/
theorem strict_render_eq (t : Template) (context : Context) (options : Options)
    (name : Option String) :
    let lenient := { options with strict := false }
    let strict := { options with strict := true }
    (t.render context strict name).result =
        (match t.degradations context lenient name with
        | [] => (t.render context lenient name).result
        | d :: _ => .error (.ofDegradation d))
      ∧ (t.degradations context lenient name = [] →
          ∀ report, (t.render context lenient name).result = .ok report → report.warnings = [])
      ∧ ((∃ report, (t.render context strict name).result = .ok report) ↔
          ∃ report, (t.render context lenient name).result = .ok report ∧ report.warnings = [])
      ∧ (∀ report, (t.render context strict name).result = .ok report → report.warnings = [])
      ∧ ∀ e, (t.render context lenient name).result = .error e → e = .tooDeep options.maxDepth := by
  intro lenient strict
  rw [t.degradations_eq, t.result_render, t.result_render]
  have hok : ∀ report, (t.yield context strict).report = .ok report → report.warnings = [] :=
    fun report h => by
      rw [Yield.warnings_of_report h, Degradation.inSourceOrder_eq_nil]
      exact degradations_perform_strict options _
  have herror : ∀ e, (t.yield context lenient).report = .error e → e = .tooDeep options.maxDepth :=
    fun e h => failure_perform_lenient options (Yield.failure_of_report h)
  cases hds : (t.yield context lenient).degradations with
  | nil =>
      have heq : t.yield context strict = t.yield context lenient :=
        perform_strict_of_degradations_eq_nil options hds
      rw [heq] at hok ⊢
      exact ⟨rfl, fun _ => hok, ⟨fun ⟨report, h⟩ => ⟨report, h, hok report h⟩,
        fun ⟨report, h, _⟩ => ⟨report, h⟩⟩, hok, herror⟩
  | cons d ds =>
      have hstrict : (t.yield context strict).report = .error (.ofDegradation d) :=
        Yield.report_of_failure (failure_perform_strict_of_degradations_eq_cons options hds)
      refine ⟨hstrict, nofun, ⟨fun ⟨report, h⟩ => ?_, fun ⟨report, h, hnil⟩ => ?_⟩, hok, herror⟩
      · rw [hstrict] at h
        cases h
      · rw [Yield.warnings_of_report h, Degradation.inSourceOrder_eq_nil, hds] at hnil
        cases hnil

end Stencil
