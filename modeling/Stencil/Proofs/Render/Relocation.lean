import Stencil.Proofs.Render.Report
import Stencil.Proofs.Template.Forest

/-!
# Renders of moved templates

A render reads the spans of a template only to tell where its substitutions are. Moving a forest
therefore moves the substitutions and changes nothing else (`Node.scriptAll_shiftAll`,
`perform_map_shift`, `Degradation.inSourceOrder_map_shift`), and every substitution is about one
of the directives of the forest (`Node.mem_degradationsAll`).
-/

namespace Stencil

/-! ## Moving -/

namespace Degradation

def shift (n : Nat) (d : Degradation) : Degradation := { d with span := d.span.shift n }

theorem inSourceOrder_map_shift (n : Nat) (ds : List Degradation) :
    inSourceOrder (ds.map (shift n)) = (inSourceOrder ds).map (shift n) := by
  refine (List.map_mergeSort fun a _ b _ => ?_).symm
  simp [shift, Span.shift]

end Degradation

namespace Action

def shift (n : Nat) : Action → Action
  | emit text => .emit text
  | degrade d => .degrade (d.shift n)
  | overflow => .overflow

end Action

theorem perform_map_shift (o : Options) (n : Nat) (actions : List Action) :
    perform o (actions.map (Action.shift n)) =
      { perform o actions with
        degradations := (perform o actions).degradations.map (Degradation.shift n) } := by
  induction actions with
  | nil => rfl
  | cons action rest ih =>
      rw [List.map_cons, perform_cons, ih, perform_cons]
      cases action with
      | emit text => rfl
      | degrade d =>
          -- Neither the filler nor the error tells where the substitution is.
          cases hstrict : o.strict <;>
            simp [Action.yield, Action.shift, hstrict, Yield.andThen, Options.filler,
              Degradation.shift, RenderError.ofDegradation]
      | overflow => rfl

def Report.shift (n : Nat) (r : Report) : Report :=
  { r with warnings := r.warnings.map (Degradation.shift n) }

theorem Yield.report_map_shift (n : Nat) (y : Yield) :
    { y with degradations := y.degradations.map (Degradation.shift n) }.report =
      y.report.map (Report.shift n) := by
  obtain ⟨output, degradations, failure⟩ := y
  cases failure with
  | some e => rfl
  | none =>
      simp only [report, Degradation.inSourceOrder_map_shift]
      rfl

namespace Script

variable (n : Nat) (subject : Reference) (body : Script)

def shift (script : Script) : Script := fun room scope => (script room scope).map (Action.shift n)

theorem nested_shift : (body.shift n).nested = body.nested.shift n := by
  funext room scope
  cases room <;> rfl

theorem inFrames_shift (frames : List LoopFrame) :
    (body.shift n).inFrames frames = (body.inFrames frames).shift n := by
  funext room scope
  exact List.map_flatMap.symm

theorem interpolate_shift (path : String) (span : Span) :
    interpolate path (span.shift n) = (interpolate path span).shift n := by
  funext room scope
  rw [shift, interpolate, interpolate]
  split
  · split <;> rfl
  · rfl

theorem conditional_shift (expected : Bool) :
    (body.shift n).conditional (subject.shift n) expected =
      (body.conditional subject expected).shift n := by
  funext room scope
  rw [shift, conditional, conditional, nested_shift]
  exact (apply_ite (List.map (Action.shift n))
    (((scope.resolve? subject.path).map Value.isTruthy).getD false = expected)
    (body.nested room scope) []).symm

theorem iteration_shift :
    (body.shift n).iteration (subject.shift n) = (body.iteration subject).shift n := by
  funext room scope
  rw [shift, iteration, iteration]
  simp only [Reference.shift]
  split
  · rfl
  · rw [inFrames_shift, nested_shift, shift]
  · rfl

theorem block_shift (kind : BlockKind) :
    block kind (subject.shift n) (body.shift n) = (block kind subject body).shift n := by
  cases kind with
  | conditional => exact body.conditional_shift n subject true
  | negation => exact body.conditional_shift n subject false
  | iteration => exact body.iteration_shift n subject

end Script

namespace Node

mutual

theorem script_shift (n : Nat) : ∀ node : Node, (node.shift n).script = node.script.shift n
  | .literal _ _ => rfl
  | .interpolation path span => Script.interpolate_shift n path span
  | .block kind subject body _ => by
      rw [shift, script, scriptAll_shiftAll n body]
      exact Script.block_shift n subject (scriptAll body) kind

theorem scriptAll_shiftAll (n : Nat) : ∀ nodes : List Node,
    scriptAll (shiftAll n nodes) = (scriptAll nodes).shift n
  | [] => rfl
  | node :: rest => by
      funext room scope
      rw [shiftAll, scriptAll, script_shift n node, scriptAll_shiftAll n rest]
      exact List.map_append.symm

end

end Node

/-! ## The places of substitutions -/

mutual

/-- The substitutions that renders of the node may make. -/
def Node.degradations : Node → List Degradation
  | .literal _ _ => []
  | .interpolation path span => [⟨.missing, path, span⟩]
  | .block .iteration subject body _ =>
    ⟨.notIterable, subject.path, subject.span⟩ :: Node.degradationsAll body
  | .block _ _ body _ => Node.degradationsAll body

def Node.degradationsAll : List Node → List Degradation
  | [] => []
  | node :: rest => node.degradations ++ Node.degradationsAll rest

end

/-- The script makes no other substitutions. -/
def Script.Within (script : Script) (ds : List Degradation) : Prop :=
  ∀ room scope d, .degrade d ∈ script room scope → d ∈ ds

namespace Script.Within

variable {body : Script} {ds : List Degradation}

theorem nested (h : body.Within ds) : body.nested.Within ds := by
  intro room scope d hd
  cases room with
  | zero => simp [Script.nested] at hd
  | succ room => exact h room scope d hd

theorem inFrames (h : body.Within ds) (frames : List LoopFrame) :
    (body.inFrames frames).Within ds := by
  intro room scope d hd
  obtain ⟨frame, -, hd⟩ := List.mem_flatMap.mp hd
  exact h room (scope.push frame) d hd

theorem interpolate (path : String) (span : Span) :
    (Script.interpolate path span).Within [⟨.missing, path, span⟩] := by
  intro room scope d hd
  rw [Script.interpolate] at hd
  split at hd
  · split at hd
    · simpa using hd
    · simp at hd
  · simpa using hd

theorem conditional (h : body.Within ds) (subject : Reference) (expected : Bool) :
    (body.conditional subject expected).Within ds := by
  intro room scope d hd
  rw [Script.conditional] at hd
  split at hd
  · exact h.nested room scope d hd
  · cases hd

theorem iteration (h : body.Within ds) (subject : Reference) :
    (body.iteration subject).Within (⟨.notIterable, subject.path, subject.span⟩ :: ds) := by
  intro room scope d hd
  rw [Script.iteration] at hd
  split at hd
  · cases hd
  · exact List.mem_cons_of_mem _ ((h.inFrames _).nested room scope d hd)
  · obtain rfl := Action.degrade.inj (List.mem_singleton.mp hd)
    exact List.mem_cons_self ..

end Script.Within

namespace Node

mutual

theorem within_degradations : ∀ node : Node, node.script.Within node.degradations
  | .literal _ _ => fun _ _ _ hd => by simp [script] at hd
  | .interpolation path span => .interpolate path span
  | .block .conditional subject body _ => (within_degradationsAll body).conditional subject true
  | .block .negation subject body _ => (within_degradationsAll body).conditional subject false
  | .block .iteration subject body _ => (within_degradationsAll body).iteration subject

theorem within_degradationsAll : ∀ nodes : List Node,
    (scriptAll nodes).Within (degradationsAll nodes)
  | [] => fun _ _ _ hd => by cases hd
  | node :: rest => fun room scope d hd => by
      rcases List.mem_append.mp hd with hd | hd
      · exact List.mem_append_left _ (within_degradations node room scope d hd)
      · exact List.mem_append_right _ (within_degradationsAll rest room scope d hd)

end

end Node

theorem Yield.mem_degradations_andThen {a b : Yield} {d : Degradation}
    (h : d ∈ (a.andThen b).degradations) : d ∈ a.degradations ∨ d ∈ b.degradations := by
  rw [Yield.andThen] at h
  split at h
  · exact List.mem_append.mp h
  · exact .inl h

theorem Action.eq_degrade_of_mem {o : Options} {action : Action} {d : Degradation}
    (h : d ∈ (action.yield o).degradations) : action = .degrade d := by
  cases action with
  | emit text => cases h
  | degrade d' =>
      rw [Action.yield] at h
      split at h
      · cases h
      · rw [List.mem_singleton.mp h]
  | overflow => cases h

theorem mem_of_mem_degradations_perform {o : Options} {actions : List Action} {d : Degradation}
    (h : d ∈ (perform o actions).degradations) : .degrade d ∈ actions := by
  induction actions with
  | nil => cases h
  | cons action rest ih =>
      rw [perform_cons] at h
      rcases Yield.mem_degradations_andThen h with hfirst | hrest
      · rw [Action.eq_degrade_of_mem hfirst]
        exact List.mem_cons_self ..
      · exact List.mem_cons_of_mem _ (ih hrest)

theorem Template.mem_degradationsAll {t : Template} {context : Context} {options : Options}
    {d : Degradation} (h : d ∈ (t.yield context options).degradations) :
    d ∈ Node.degradationsAll t.nodes :=
  Node.within_degradationsAll t.nodes _ _ d (mem_of_mem_degradations_perform h)

end Stencil
