import Stencil.Proofs.Render.Order
import Stencil.Proofs.Render.Script

/-!
# Reports

A report is what is shown of a yield: the error of one that fails, and of any other the output with
the substitutions in the order of their places. The report of two parts can be told from the reports
of each (`Yield.report_andThen`), and so can that of any number of parts (`report_flatMap`).
-/

namespace Stencil

namespace Yield

theorem warnings_of_report {y : Yield} {report : Report} (h : y.report = .ok report) :
    report.warnings = Degradation.inSourceOrder y.degradations := by
  rw [Yield.report] at h
  split at h
  · rw [← Except.ok.inj h]
  · cases h

theorem failure_of_report {y : Yield} {e : RenderError} (h : y.report = .error e) :
    y.failure = some e := by
  rw [Yield.report] at h
  split at h
  · cases h
  · rename_i hf
    rw [hf, Except.error.inj h]

theorem report_of_failure {y : Yield} {e : RenderError} (h : y.failure = some e) :
    y.report = .error e := by
  rw [Yield.report, h]

theorem report_of_completed {y : Yield} (h : y.failure = none) :
    y.report = .ok ⟨y.output, Degradation.inSourceOrder y.degradations⟩ := by
  rw [Yield.report, h]

/-- What is sorted for one part has to be sorted again for the whole. -/
theorem report_andThen (a b : Yield) :
    (a.andThen b).report = (do
      let r ← a.report
      let r' ← b.report
      pure ⟨r.output ++ r'.output, Degradation.inSourceOrder (r.warnings ++ r'.warnings)⟩) := by
  obtain ⟨output, degradations, failure⟩ := a
  obtain ⟨output', degradations', failure'⟩ := b
  cases failure with
  | some e => rfl
  | none =>
      cases failure' with
      | some e => rfl
      | none =>
          show Except.ok _ = Except.ok _
          rw [Degradation.inSourceOrder_inSourceOrder_append,
            Degradation.inSourceOrder_append_inSourceOrder]
          rfl

end Yield

/-- The report of parts that are shown one after the other. -/
def Report.concat (reports : List Report) : Report :=
  ⟨String.join (reports.map Report.output),
    Degradation.inSourceOrder (reports.flatMap Report.warnings)⟩

/-- The first part that fails decides; without one all parts are reported together. -/
theorem report_flatMap {α : Type} (o : Options) (parts : List α) (script : α → List Action) :
    (perform o (parts.flatMap script)).report =
      (parts.mapM fun part => (perform o (script part)).report).map Report.concat := by
  induction parts with
  | nil => rfl
  | cons part rest ih =>
      rw [List.flatMap_cons, perform_append, Yield.report_andThen, ih, List.mapM_cons]
      cases (perform o (script part)).report with
      | error e => rfl
      | ok r =>
          cases rest.mapM fun part => (perform o (script part)).report with
          | error e => rfl
          | ok reports =>
              show Except.ok _ = Except.ok _
              rw [Report.concat, Report.concat, Degradation.inSourceOrder_append_inSourceOrder,
                List.map_cons, String.join_cons, List.flatMap_cons]

end Stencil
