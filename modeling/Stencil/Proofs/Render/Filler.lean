import Stencil.Proofs.Render.Likeness
import Stencil.Proofs.Render.Report

/-!
# The default value

The default value is shown and nothing else is done with it: it is not read, it decides nothing, and
it is shown once for each missing path. The texts between the places where it is shown are laid down
by the script (`Action.fragments`), and the output of a lenient render is these fragments with the
default value between them (`output_perform`). So renders that differ in their default value alone
fail together, or have the same warnings and the same fragments (`Template.render_defaultValue`).
-/

namespace Stencil

/-- The texts that the actions show between one missing path and the next, up to the first
overflow. -/
def Action.fragments : List Action → List String
  | [] => [""]
  | .emit text :: rest => (fragments rest).modifyHead (text ++ ·)
  | .degrade d :: rest =>
    match d.kind with
    | .missing => "" :: fragments rest
    | .notIterable => fragments rest
  | .overflow :: _ => [""]

theorem Action.exists_fragments_eq_cons (actions : List Action) :
    ∃ first rest, fragments actions = first :: rest := by
  induction actions with
  | nil => exact ⟨_, _, rfl⟩
  | cons action rest ih =>
      obtain ⟨first, others, hrest⟩ := ih
      cases action with
      | emit text => exact ⟨_, _, by rw [fragments, hrest, List.modifyHead_cons]⟩
      | overflow => exact ⟨_, _, rfl⟩
      | degrade d =>
          obtain ⟨kind, path, span⟩ := d
          cases kind with
          | missing => exact ⟨_, _, rfl⟩
          | notIterable => exact ⟨_, _, hrest⟩

section Perform

variable {o : Options}

/-- The default value is all that stands between the fragments. -/
theorem output_perform (h : o.strict = false) (actions : List Action) :
    (perform o actions).output = o.defaultValue.intercalate (Action.fragments actions) := by
  induction actions with
  | nil => simp [Yield.nothing, Action.fragments]
  | cons action rest ih =>
      obtain ⟨first, others, hrest⟩ := Action.exists_fragments_eq_cons rest
      rw [perform_cons]
      cases action with
      | emit text =>
          show text ++ (perform o rest).output = _
          rw [ih, Action.fragments, hrest, List.modifyHead_cons, String.intercalate_cons_append]
      | overflow =>
          show "" = o.defaultValue.intercalate [""]
          rw [String.intercalate_singleton]
      | degrade d =>
          rw [Action.yield_degrade_of_lenient h]
          obtain ⟨kind, path, span⟩ := d
          cases kind with
          | missing =>
              show o.defaultValue ++ (perform o rest).output =
                o.defaultValue.intercalate ("" :: Action.fragments rest)
              rw [ih, hrest, String.intercalate_cons_cons, String.empty_append]
          | notIterable =>
              show "" ++ (perform o rest).output = _
              rw [ih, String.empty_append]
              rfl

/-- There is one fragment more than paths that are missed, up to the first overflow. -/
theorem length_fragments (h : o.strict = false) (actions : List Action) :
    (Action.fragments actions).length =
      (perform o actions).degradations.countP (·.kind = .missing) + 1 := by
  induction actions with
  | nil => rfl
  | cons action rest ih =>
      rw [perform_cons]
      cases action with
      | emit text =>
          rw [Action.fragments, List.length_modifyHead]
          exact ih
      | overflow => rfl
      | degrade d =>
          rw [Action.yield_degrade_of_lenient h]
          obtain ⟨kind, path, span⟩ := d
          cases kind with
          | missing =>
              show (Action.fragments rest).length + 1 =
                (_ :: (perform o rest).degradations).countP _ + 1
              rw [ih, List.countP_cons_of_pos (by simp)]
          | notIterable =>
              show (Action.fragments rest).length =
                (_ :: (perform o rest).degradations).countP _ + 1
              rw [ih, List.countP_cons_of_neg (by simp)]

/-- Neither what is substituted nor how a run fails depends on what is shown. -/
theorem perform_defaultValue (o : Options) (value : String) (actions : List Action) :
    (perform { o with defaultValue := value } actions).degradations =
        (perform o actions).degradations ∧
      (perform { o with defaultValue := value } actions).failure =
        (perform o actions).failure := by
  induction actions with
  | nil => exact ⟨rfl, rfl⟩
  | cons action rest ih =>
      have hyield : (action.yield { o with defaultValue := value }).degradations =
            (action.yield o).degradations ∧
          (action.yield { o with defaultValue := value }).failure = (action.yield o).failure := by
        cases action with
        | emit text => exact ⟨rfl, rfl⟩
        | overflow => exact ⟨rfl, rfl⟩
        | degrade d =>
            simp only [Action.yield]
            split <;> exact ⟨rfl, rfl⟩
      rw [perform_cons, perform_cons]
      exact Yield.andThen_congr hyield ih

/-- A strict run never comes to show the default value. -/
theorem perform_strict_defaultValue (h : o.strict = true) (value : String)
    (actions : List Action) : perform { o with defaultValue := value } actions =
      perform o actions := by
  induction actions with
  | nil => rfl
  | cons action rest ih =>
      have hyield : action.yield { o with defaultValue := value } = action.yield o := by
        cases action with
        | emit text => rfl
        | overflow => rfl
        | degrade d =>
            exact (Action.yield_degrade_of_strict (o := { o with defaultValue := value }) h d).trans
              (Action.yield_degrade_of_strict h d).symm
      rw [perform_cons, perform_cons, ih, hyield]

end Perform

/-- The default value is pure filler. Lenient renders that differ in it alone all fail with the same
error, or they all have the same warnings and show the same fragments with the default value between
them, once for each missing path that they warn of. Strict renders do not depend on it. -/
theorem Template.render_defaultValue (t : Template) (context : Context) (options : Options)
    (name : Option String) :
    let lenient value := { options with strict := false, defaultValue := value }
    let strict value := { options with strict := true, defaultValue := value }
    (∃ events,
      (∃ e, ∀ value, t.render context (lenient value) name = ⟨.error e, events⟩) ∨
      ∃ fragments warnings,
        fragments.length = warnings.countP (·.kind = .missing) + 1 ∧
        ∀ value, t.render context (lenient value) name =
          ⟨.ok ⟨value.intercalate fragments, warnings⟩, events⟩) ∧
      ∀ value value', t.render context (strict value) name =
        t.render context (strict value') name := by
  intro lenient strict
  let actions := Node.scriptAll t.nodes options.maxDepth (.ofContext context)
  let y := perform { options with strict := false } actions
  have hyield : ∀ value, (t.yield context (lenient value)).degradations = y.degradations ∧
      (t.yield context (lenient value)).failure = y.failure := fun value =>
    perform_defaultValue { options with strict := false } value actions
  refine ⟨⟨y.degradations.flatMap (Progress.start options name).eventsOf, ?_⟩,
    fun value value' => ?_⟩
  · cases hfailure : y.failure with
    | some e =>
        refine .inl ⟨e, fun value => ?_⟩
        rw [Template.render_eq, (hyield value).1,
          Yield.report_of_failure ((hyield value).2.trans hfailure)]
        rfl
    | none =>
        refine .inr ⟨Action.fragments actions, Degradation.inSourceOrder y.degradations, ?_,
          fun value => ?_⟩
        · rw [(Degradation.perm_inSourceOrder _).countP_eq]
          exact length_fragments rfl actions
        · have houtput : (t.yield context (lenient value)).output =
              value.intercalate (Action.fragments actions) :=
            output_perform (o := lenient value) rfl actions
          rw [Template.render_eq, Yield.report_of_completed ((hyield value).2.trans hfailure),
            (hyield value).1, houtput]
          rfl
  · have hsame : t.yield context (strict value) = t.yield context (strict value') :=
      perform_strict_defaultValue (o := strict value') rfl value actions
    rw [Template.render_eq, Template.render_eq, hsame]
    rfl

/-- A default value that is spelled like a marker is not read. -/
example :
    let t : Template := ⟨"[\x7b\x7ba\x7d\x7d]\x7b\x7ba\x7d\x7d", [.literal "[" ⟨0, 1⟩,
      .interpolation "a" ⟨1, 6⟩, .literal "]" ⟨6, 7⟩, .interpolation "a" ⟨7, 12⟩]⟩
    Template.compile t.source = .ok t ∧
      (t.render .empty { defaultValue := "\x7b\x7ba" } none).result =
        .ok ⟨"\x7b\x7ba".intercalate ["[", "]", ""],
          [⟨.missing, "a", ⟨1, 6⟩⟩, ⟨.missing, "a", ⟨7, 12⟩⟩]⟩ := by
  intro t
  refine ⟨by cbv, ?_⟩
  rw [Template.result_render]
  cbv

end Stencil
