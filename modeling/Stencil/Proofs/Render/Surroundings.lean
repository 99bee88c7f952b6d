import Stencil.Proofs.Render.Script
import Mathlib

/-!
# What a part of a render leaves behind

The nodes of a template may be rendered anywhere: inside of loops, in blocks, after other output
and other substitutions. What they come to depends on the scope, the options and the depth there
alone. What was there before stays, and what they put up for a body is taken down again, frames
also where the body fails. The depth alone is given back only by a body that comes to its end;
`Render.StopsWithin` bounds what a failure leaves of it, construct by construct, and
`Node.renderAll_restores` has both.
-/

namespace Stencil

namespace Render

variable {m m' body : Render Unit}

/-- A failure leaves the depth no lower than it was and, if it is higher, within the limit. -/
def StopsWithin (m : Render Unit) : Prop :=
  ∀ (s s' : RenderState) (e : RenderError), m s = .error e s' →
    s.progress.depth ≤ s'.progress.depth ∧
      s'.progress.depth ≤ max s.progress.depth s.progress.options.maxDepth

theorem stopsWithin_of_state_eq
    (h : ∀ (s s' : RenderState) (e : RenderError), m s = .error e s' → s' = s) :
    StopsWithin m := by
  intro s s' e herror
  obtain rfl := h s s' e herror
  exact ⟨le_rfl, le_max_left _ _⟩

theorem stopsWithin_pure : StopsWithin (pure ()) := fun _ _ _ h => nomatch h

theorem stopsWithin_emit (text : String) : StopsWithin (emit text) := fun _ _ _ h => nomatch h

theorem stopsWithin_advance (step : Progress → Except RenderError Progress) :
    StopsWithin (advance step) := by
  refine stopsWithin_of_state_eq fun s s' e h => ?_
  rw [advance_apply] at h
  split at h <;> cases h
  rfl

theorem stopsWithin_emitMissing (path : String) (span : Span) :
    StopsWithin (emitMissing path span) := by
  refine stopsWithin_of_state_eq fun s s' e h => ?_
  rw [emitMissing_apply] at h
  split at h <;> cases h
  rfl

theorem Performs.eq_after {script : Script} (h : Performs m script) {s s' : RenderState}
    (hok : m s = .ok () s') :
    s' = s.after (perform s.progress.options (script s.room s.scope)) := by
  have hrun := h s
  rw [hok] at hrun
  cases hrun
  rfl

theorem StopsWithin.bind {script : Script} (h : StopsWithin m) (hperforms : Performs m script)
    (h' : StopsWithin m') : StopsWithin (m >>= fun _ => m') := by
  intro s s' e herror
  cases hr : m s with
  | ok _ between =>
      rw [bind_of_ok hr] at herror
      -- What comes to its end gives the depth back, so the second part starts where the first did.
      rw [hperforms.eq_after hr] at herror
      have hlater := h' _ _ _ herror
      exact hlater
  | error e' between =>
      rw [bind_of_error hr] at herror
      cases herror
      exact h s s' e hr

theorem StopsWithin.nested (h : StopsWithin body) : StopsWithin (nested body) := by
  intro s s' e herror
  by_cases hroom : s.progress.depth < s.progress.options.maxDepth
  · rw [Render.nested, bind_of_ok (advance_enter_of_lt hroom)] at herror
    cases hr : body (s.atDepth (s.progress.depth + 1)) with
    | ok _ left =>
        -- The way out of the body is never refused.
        rw [bind_of_ok hr, advance_apply] at herror
        cases herror
    | error e' left =>
        rw [bind_of_error hr] at herror
        cases herror
        have hbody := h _ _ _ hr
        simp only [RenderState.atDepth] at hbody
        omega
  · rw [Render.nested, bind_of_error (advance_enter_of_not_lt hroom)] at herror
    cases herror
    exact ⟨le_rfl, le_max_left _ _⟩

theorem StopsWithin.inFrame (h : StopsWithin body) (frame : LoopFrame) :
    StopsWithin (inFrame frame body) := by
  intro s s' e herror
  rw [Render.inFrame] at herror
  cases hr : body { s with scope := s.scope.push frame } with
  | ok _ left =>
      rw [hr] at herror
      cases herror
  | error e' left =>
      rw [hr] at herror
      cases herror
      have hbody := h _ _ _ hr
      exact hbody

theorem StopsWithin.inFrames {script : Script} (h : StopsWithin body)
    (hperforms : Performs body script) (frames : List LoopFrame) :
    StopsWithin (frames.forM (Render.inFrame · body)) := by
  induction frames with
  | nil => exact stopsWithin_pure
  | cons frame rest ih => exact (h.inFrame frame).bind (hperforms.inFrame frame) ih

/-- What is made of the value of a path stops within the limit if it does for each value. -/
theorem stopsWithin_resolve {path : String} {k : Option Value → Render Unit}
    (h : ∀ found, StopsWithin (k found)) : StopsWithin (resolve? path >>= k) := by
  intro s s' e herror
  rw [resolve_bind_apply] at herror
  exact h _ s s' e herror

theorem stopsWithin_interpolate (path : String) (span : Span) :
    StopsWithin (interpolate path span) := by
  refine stopsWithin_resolve fun found => ?_
  cases found with
  | none => exact stopsWithin_emitMissing path span
  | some value =>
      cases hnull : value.isNull with
      | true =>
          simp only [hnull, if_true]
          exact stopsWithin_emitMissing path span
      | false =>
          simp only [hnull, Bool.false_eq_true, if_false]
          exact stopsWithin_emit value.render

theorem StopsWithin.conditional (h : StopsWithin body) (subject : Reference) (expected : Bool) :
    StopsWithin (conditional subject expected body) := by
  refine stopsWithin_resolve fun found => ?_
  by_cases hexpected : (found.map Value.isTruthy).getD false = expected
  · simp only [hexpected, if_true]
    exact h.nested
  · simp only [hexpected, if_false]
    exact stopsWithin_pure

theorem StopsWithin.iteration {script : Script} (h : StopsWithin body)
    (hperforms : Performs body script) (subject : Reference) :
    StopsWithin (iteration subject body) := by
  have hskip := stopsWithin_advance (·.notIterable subject.path subject.span)
  refine stopsWithin_resolve fun found => ?_
  rcases found with _ | value
  · exact hskip
  · cases value with
    | list items =>
        cases items with
        | nil => exact stopsWithin_pure
        | cons item rest => exact (h.inFrames hperforms _).nested
    | null | bool | number | string | map => exact hskip

theorem StopsWithin.block {script : Script} (h : StopsWithin body)
    (hperforms : Performs body script) (kind : BlockKind) (subject : Reference) :
    StopsWithin (block kind subject body) := by
  cases kind with
  | conditional => exact h.conditional subject true
  | negation => exact h.conditional subject false
  | iteration => exact h.iteration hperforms subject

end Render

namespace Node

mutual

theorem stopsWithin_render : ∀ node : Node, Render.StopsWithin node.render
  | .literal text _ => Render.stopsWithin_emit text
  | .interpolation path span => Render.stopsWithin_interpolate path span
  | .block kind subject body _ =>
    (stopsWithin_renderAll body).block (performs_renderAll body) kind subject

theorem stopsWithin_renderAll : ∀ nodes : List Node, Render.StopsWithin (Node.renderAll nodes)
  | [] => Render.stopsWithin_pure
  | node :: rest =>
    (stopsWithin_render node).bind (performs_render node) (stopsWithin_renderAll rest)

end

/-- Some nodes in any place of a render. The scope is as before when they are through, and also when
they fail; output, substitutions and log only get longer, by what the scope, the options and the
depth decide alone; and the depth is as before unless they fail. -/
theorem renderAll_restores (nodes : List Node) (scope : Scope) (options : Options) (depth : Nat) :
    ∃ (text : String) (substituted : List Degradation) (failure : Option RenderError),
      ∀ (template : Option String) (recorded : List Degradation) (events : List Event)
        (output : String),
        let progress : Progress := ⟨options, template, depth, recorded, events⟩
        let left (depth' : Nat) : RenderState :=
          ⟨scope, ⟨options, template, depth', recorded ++ substituted,
            events ++ substituted.flatMap progress.eventsOf⟩, output ++ text⟩
        match failure with
        | none => Node.renderAll nodes ⟨scope, progress, output⟩ = .ok () (left depth)
        | some e => ∃ depth', depth ≤ depth' ∧ depth' ≤ max depth options.maxDepth ∧
            Node.renderAll nodes ⟨scope, progress, output⟩ = .error e (left depth') := by
  let y := perform options (Node.scriptAll nodes (options.maxDepth - depth) scope)
  refine ⟨y.output, y.degradations, y.failure, ?_⟩
  intro template recorded events output progress left
  have hrun : Yields ⟨scope, progress, output⟩ y (Node.renderAll nodes ⟨scope, progress, output⟩) :=
    Node.performs_renderAll nodes _
  have hstops := stopsWithin_renderAll nodes ⟨scope, progress, output⟩
  generalize Node.renderAll nodes _ = r at hrun hstops
  cases hrun with
  | ok hy =>
      rw [hy]
      rfl
  | error depth' hy =>
      rw [hy]
      obtain ⟨hle, hle'⟩ := hstops _ _ rfl
      exact ⟨depth', hle, hle', rfl⟩

/-- A loop over a list that holds a null, inside of another loop and after some output. -/
example :
    let outer : LoopFrame := ⟨.list [.null], 0, 1⟩
    let nodes : List Node := [.block .iteration ⟨"this", ⟨8, 12⟩⟩
      [.literal "-" ⟨14, 15⟩, .interpolation "this" ⟨15, 23⟩] ⟨0, 32⟩]
    let scope : Scope := ⟨.empty, [outer]⟩
    let options : Options := { strict := true }
    Node.renderAll nodes ⟨scope, ⟨options, none, 1, [], []⟩, "+"⟩ =
      .error (.ofDegradation ⟨.missing, "this", ⟨15, 23⟩⟩)
        ⟨scope, ⟨options, none, 2, [], []⟩, "+-"⟩ := by
  cbv

end Node

end Stencil
