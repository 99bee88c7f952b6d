import Stencil.Render.Evaluation
import Mathlib

/-!
# Renders as scripts

A render reads its scope and writes output, and it stops at the first error. What it would do,
were it never stopped, is a list of actions that depends on the tree, the scope and the room
left for deeper blocks, but not on the other options: those only decide what each action comes
to. `Node.scriptAll` lists the actions and `perform` tells what they come to under given
options; `Node.performs_renderAll` says that the render does just that, and
`Template.render_eq` that it is all there is to a whole render.

Laws about renders are therefore proved on two levels that do not meet: on scripts, where
strictness, default value and log are out of sight, and on `perform`, where the tree is.
-/

namespace Stencil

/-! ## Actions and what they come to -/

inductive Action where
  | emit (text : String)
  | degrade (d : Degradation)
  /-- A block that is nested deeper than the options allow. -/
  | overflow
  deriving Repr, DecidableEq

/-- What some actions come to: the output and the substitutions up to the first action that
fails, and its error. -/
structure Yield where
  output : String
  degradations : List Degradation
  failure : Option RenderError
  deriving Repr, DecidableEq

namespace Yield

def nothing : Yield := ⟨"", [], none⟩

/-- What comes after a failure is never reached. -/
def andThen (a b : Yield) : Yield :=
  match a.failure with
  | none => ⟨a.output ++ b.output, a.degradations ++ b.degradations, b.failure⟩
  | some _ => a

@[simp] theorem nothing_andThen (y : Yield) : nothing.andThen y = y := by
  simp [nothing, andThen]

@[simp] theorem andThen_nothing (y : Yield) : y.andThen nothing = y := by
  obtain ⟨output, degradations, failure⟩ := y
  cases failure <;> simp [nothing, andThen]

theorem andThen_assoc (a b c : Yield) :
    (a.andThen b).andThen c = a.andThen (b.andThen c) := by
  obtain ⟨output, degradations, failure⟩ := a
  obtain ⟨output', degradations', failure'⟩ := b
  cases failure <;> cases failure' <;>
    simp [andThen, String.append_assoc, List.append_assoc]

theorem andThen_of_failure {a : Yield} {e : RenderError} (h : a.failure = some e) (b : Yield) :
    a.andThen b = a := by
  rw [andThen, h]

end Yield

/-- What is shown in place of a substituted directive. -/
def Options.filler (o : Options) (d : Degradation) : String :=
  match d.kind with
  | .missing => o.defaultValue
  | .notIterable => ""

def Action.yield (o : Options) : Action → Yield
  | emit text => ⟨text, [], none⟩
  | degrade d =>
    if o.strict then ⟨"", [], some (.ofDegradation d)⟩ else ⟨o.filler d, [d], none⟩
  | overflow => ⟨"", [], some (.tooDeep o.maxDepth)⟩

theorem Action.yield_degrade_of_strict {o : Options} (h : o.strict = true) (d : Degradation) :
    (degrade d).yield o = ⟨"", [], some (.ofDegradation d)⟩ := if_pos h

theorem Action.yield_degrade_of_lenient {o : Options} (h : o.strict = false) (d : Degradation) :
    (degrade d).yield o = ⟨o.filler d, [d], none⟩ := if_neg (by simp [h])

def perform (o : Options) : List Action → Yield
  | [] => .nothing
  | action :: rest => (action.yield o).andThen (perform o rest)

@[simp] theorem perform_nil (o : Options) : perform o [] = .nothing := rfl

theorem perform_cons (o : Options) (action : Action) (rest : List Action) :
    perform o (action :: rest) = (action.yield o).andThen (perform o rest) := rfl

@[simp] theorem perform_singleton (o : Options) (action : Action) :
    perform o [action] = action.yield o := by
  rw [perform_cons, perform_nil, Yield.andThen_nothing]

theorem perform_append (o : Options) (first second : List Action) :
    perform o (first ++ second) = (perform o first).andThen (perform o second) := by
  induction first with
  | nil => simp
  | cons action rest ih =>
      rw [List.cons_append, perform_cons, ih, perform_cons, Yield.andThen_assoc]

/-! ## Scripts of trees -/

/-- What a part of a template does in a scope, with room for so many levels of blocks. -/
abbrev Script := (room : Nat) → Scope → List Action

namespace Script

def nested (body : Script) : Script
  | 0, _ => [.overflow]
  | room + 1, scope => body room scope

def interpolate (path : String) (span : Span) : Script := fun _ scope =>
  match scope.resolve? path with
  | some value => if value.isNull then [.degrade ⟨.missing, path, span⟩] else [.emit value.render]
  | none => [.degrade ⟨.missing, path, span⟩]

def conditional (subject : Reference) (expected : Bool) (body : Script) : Script :=
  fun room scope =>
    let truthy := ((scope.resolve? subject.path).map Value.isTruthy).getD false
    if truthy = expected then body.nested room scope else []

def inFrames (frames : List LoopFrame) (body : Script) : Script := fun room scope =>
  frames.flatMap fun frame => body room (scope.push frame)

def iteration (subject : Reference) (body : Script) : Script := fun room scope =>
  match scope.resolve? subject.path with
  | some (.list []) => []
  | some (.list items) => (body.inFrames (Render.framesOf items)).nested room scope
  | _ => [.degrade ⟨.notIterable, subject.path, subject.span⟩]

def block (kind : BlockKind) (subject : Reference) (body : Script) : Script :=
  match kind with
  | .conditional => body.conditional subject true
  | .negation => body.conditional subject false
  | .iteration => body.iteration subject

end Script

mutual

def Node.script : Node → Script
  | .literal text _ => fun _ _ => [.emit text]
  | .interpolation path span => .interpolate path span
  | .block kind subject body _ => .block kind subject (Node.scriptAll body)

def Node.scriptAll : List Node → Script
  | [] => fun _ _ => []
  | node :: rest => fun room scope => node.script room scope ++ Node.scriptAll rest room scope

end

/-! ## The render does what its script says -/

namespace RenderState

/-- The state after a part of a render that comes to `y`. -/
def after (s : RenderState) (y : Yield) : RenderState :=
  { s with
    output := s.output ++ y.output
    progress := { s.progress with
      degradations := s.progress.degradations ++ y.degradations
      events := s.progress.events ++ y.degradations.flatMap s.progress.eventsOf } }

def atDepth (s : RenderState) (depth : Nat) : RenderState :=
  { s with progress := { s.progress with depth } }

/-- How many more blocks may be entered. -/
def room (s : RenderState) : Nat := s.progress.options.maxDepth - s.progress.depth

@[simp] theorem after_nothing (s : RenderState) : s.after .nothing = s := by
  simp [after, Yield.nothing]

@[simp] theorem scope_after (s : RenderState) (y : Yield) : (s.after y).scope = s.scope := rfl

@[simp] theorem options_after (s : RenderState) (y : Yield) :
    (s.after y).progress.options = s.progress.options := rfl

@[simp] theorem room_after (s : RenderState) (y : Yield) : (s.after y).room = s.room := rfl

theorem after_andThen {a : Yield} (h : a.failure = none) (s : RenderState) (b : Yield) :
    s.after (a.andThen b) = (s.after a).after b := by
  simp only [after, Yield.andThen, h, String.append_assoc, List.append_assoc,
    List.flatMap_append]
  rfl

end RenderState

/-- The part of a render that started in the state `s` came to `y`. One that fails may leave the
depth at any value; all else is as the yield says. -/
inductive Yields (s : RenderState) (y : Yield) :
    EStateM.Result RenderError RenderState Unit → Prop
  | ok (h : y.failure = none) : Yields s y (.ok () (s.after y))
  | error {e : RenderError} (depth : Nat) (h : y.failure = some e) :
      Yields s y (.error e ((s.after y).atDepth depth))

theorem Yields.of_eq_ok {s : RenderState} {y : Yield}
    {r : EStateM.Result RenderError RenderState Unit} (hr : r = .ok () (s.after y))
    (h : y.failure = none) : Yields s y r := hr ▸ .ok h

theorem Yields.of_eq_error {s : RenderState} {y : Yield} {e : RenderError}
    {r : EStateM.Result RenderError RenderState Unit} (hr : r = .error e (s.after y))
    (h : y.failure = some e) : Yields s y r := hr ▸ .error s.progress.depth h

/-- From every state the part of a render comes to what its script does. -/
def Render.Performs (m : Render Unit) (script : Script) : Prop :=
  ∀ s : RenderState, Yields s (perform s.progress.options (script s.room s.scope)) (m s)

namespace Render

theorem performs_pure : Performs (pure ()) fun _ _ => [] := fun s =>
  .of_eq_ok (by rw [perform_nil, s.after_nothing]; rfl) rfl

theorem performs_emit (text : String) : Performs (emit text) fun _ _ => [.emit text] := fun s =>
  .of_eq_ok (by simp [RenderState.after, Action.yield, emit, modify, modifyGet,
    MonadStateOf.modifyGet, EStateM.modifyGet]) rfl

theorem performs_degrade {m : Render Unit} {d : Degradation}
    (h : ∀ s : RenderState, m s = match s.progress.degrade d with
      | .ok progress =>
        .ok () { s with progress, output := s.output ++ s.progress.options.filler d }
      | .error e => .error e s) : Performs m fun _ _ => [.degrade d] := by
  intro s
  rw [perform_singleton, h s, Progress.degrade]
  by_cases hstrict : s.progress.options.strict
  · exact .of_eq_error (e := .ofDegradation d) (by simp [Action.yield, hstrict, RenderState.after])
      (by simp [Action.yield, hstrict])
  · refine .of_eq_ok ?_ ?_ <;> simp [Action.yield, hstrict, RenderState.after]

theorem emitMissing_apply (path : String) (span : Span) (s : RenderState) :
    emitMissing path span s = match s.progress.missing path span with
      | .ok (text, progress) => .ok () { s with progress, output := s.output ++ text }
      | .error e => .error e s := by
  show (match s.progress.missing path span with
    | .ok (text, progress) => set { s with progress, output := s.output ++ text }
    | .error e => throw e : Render Unit) s = _
  cases s.progress.missing path span <;> rfl

theorem advance_apply (step : Progress → Except RenderError Progress) (s : RenderState) :
    advance step s = match step s.progress with
      | .ok progress => .ok () { s with progress }
      | .error e => .error e s := by
  show (match step s.progress with
    | .ok progress => set { s with progress }
    | .error e => throw e : Render Unit) s = _
  cases step s.progress <;> rfl

theorem performs_emitMissing (path : String) (span : Span) :
    Performs (emitMissing path span) fun _ _ => [.degrade ⟨.missing, path, span⟩] := by
  refine performs_degrade fun s => ?_
  rw [emitMissing_apply, Progress.missing]
  cases s.progress.degrade ⟨.missing, path, span⟩ <;> rfl

theorem performs_notIterable (path : String) (span : Span) :
    Performs (advance (·.notIterable path span)) fun _ _ =>
      [.degrade ⟨.notIterable, path, span⟩] := by
  refine performs_degrade fun s => ?_
  rw [advance_apply, Progress.notIterable]
  cases s.progress.degrade ⟨.notIterable, path, span⟩ with
  | error e => rfl
  | ok progress => simp [Options.filler]

theorem bind_of_ok {α β : Type} {m : Render α} {f : α → Render β} {s s' : RenderState} {a : α}
    (h : m s = .ok a s') : (m >>= f) s = f a s' := by
  show EStateM.bind m f s = _
  unfold EStateM.bind
  rw [h]

theorem bind_of_error {α β : Type} {m : Render α} {f : α → Render β} {s s' : RenderState}
    {e : RenderError} (h : m s = .error e s') : (m >>= f) s = .error e s' := by
  show EStateM.bind m f s = _
  unfold EStateM.bind
  rw [h]

theorem resolve_bind_apply {α : Type} (path : String) (f : Option Value → Render α)
    (s : RenderState) : (resolve? path >>= f) s = f (s.scope.resolve? path) s := rfl

theorem advance_enter_of_lt {s : RenderState} (h : s.progress.depth < s.progress.options.maxDepth) :
    advance Progress.enter s = .ok () (s.atDepth (s.progress.depth + 1)) := by
  rw [advance_apply, Progress.enter, if_pos h]
  rfl

theorem advance_enter_of_not_lt {s : RenderState}
    (h : ¬s.progress.depth < s.progress.options.maxDepth) :
    advance Progress.enter s = .error (.tooDeep s.progress.options.maxDepth) s := by
  rw [advance_apply, Progress.enter, if_neg h]

theorem Performs.bind {m m' : Render Unit} {script script' : Script} (h : Performs m script)
    (h' : Performs m' script') :
    Performs (m >>= fun _ => m') fun room scope => script room scope ++ script' room scope := by
  intro s
  have hfirst := h s
  generalize hr : m s = r at hfirst
  rw [perform_append]
  cases hfirst with
  | ok hy =>
      have hnext := h' (s.after (perform s.progress.options (script s.room s.scope)))
      simp only [RenderState.options_after, RenderState.room_after,
        RenderState.scope_after] at hnext
      rw [bind_of_ok hr]
      generalize m' _ = r' at hnext
      cases hnext with
      | ok hy' =>
          rw [← RenderState.after_andThen hy]
          exact .ok (by simp [Yield.andThen, hy, hy'])
      | error depth hy' =>
          rw [← RenderState.after_andThen hy]
          exact .error depth (by simp [Yield.andThen, hy, hy'])
  | error depth hy =>
      rw [Yield.andThen_of_failure hy, bind_of_error hr]
      exact .error depth hy

/-- A body one level deeper, which fails at once where there is no room for it. -/
theorem Performs.nested {body : Render Unit} {script : Script} (h : Performs body script) :
    Performs (nested body) script.nested := by
  intro s
  -- On success the depth is set back, on failure it stays, which `Yields` allows.
  by_cases hroom : s.progress.depth < s.progress.options.maxDepth
  · have hs : s.room = (s.atDepth (s.progress.depth + 1)).room + 1 := by
      simp only [RenderState.room, RenderState.atDepth]
      omega
    have hbody := h (s.atDepth (s.progress.depth + 1))
    rw [Render.nested, bind_of_ok (advance_enter_of_lt hroom), hs]
    generalize hr : body _ = r at hbody
    cases hbody with
    | ok hy =>
        rw [bind_of_ok hr, advance_apply]
        exact .of_eq_ok rfl hy
    | error depth hy =>
        rw [bind_of_error hr]
        exact .error depth hy
  · have hs : s.room = 0 := by
      simp only [RenderState.room]
      omega
    rw [Render.nested, bind_of_error (advance_enter_of_not_lt hroom), hs]
    exact .of_eq_error (by simp [Script.nested, Action.yield, RenderState.after]) rfl

theorem Performs.inFrame {body : Render Unit} {script : Script} (h : Performs body script)
    (frame : LoopFrame) :
    Performs (inFrame frame body) fun room scope => script room (scope.push frame) := by
  intro s
  have hbody := h { s with scope := s.scope.push frame }
  rw [Render.inFrame]
  generalize body _ = r at hbody
  cases hbody with
  | ok hy => exact .of_eq_ok rfl hy
  | error depth hy => exact .error depth hy

theorem Performs.inFrames {body : Render Unit} {script : Script} (h : Performs body script)
    (frames : List LoopFrame) :
    Performs (frames.forM (Render.inFrame · body)) (script.inFrames frames) := by
  induction frames with
  | nil => exact performs_pure
  | cons frame rest ih => exact (h.inFrame frame).bind ih

theorem performs_interpolate (path : String) (span : Span) :
    Performs (interpolate path span) (.interpolate path span) := by
  intro s
  rw [interpolate, resolve_bind_apply, Script.interpolate]
  cases s.scope.resolve? path with
  | none => exact performs_emitMissing path span s
  | some value =>
      by_cases hnull : value.isNull
      · simp only [hnull, if_true]
        exact performs_emitMissing path span s
      · simp only [hnull]
        exact performs_emit value.render s

theorem Performs.conditional {body : Render Unit} {script : Script} (h : Performs body script)
    (subject : Reference) (expected : Bool) :
    Performs (conditional subject expected body) (script.conditional subject expected) := by
  intro s
  rw [Render.conditional, resolve_bind_apply, Script.conditional]
  split
  · exact h.nested s
  · exact performs_pure s

theorem Performs.iteration {body : Render Unit} {script : Script} (h : Performs body script)
    (subject : Reference) :
    Performs (iteration subject body) (script.iteration subject) := by
  intro s
  rw [Render.iteration, resolve_bind_apply, Script.iteration]
  generalize s.scope.resolve? subject.path = found
  match found with
  | some (.list []) => exact performs_pure s
  | some (.list (item :: items)) => exact (h.inFrames _).nested s
  | none | some .null | some (.bool _) | some (.number _) | some (.string _) | some (.map _) =>
      exact performs_notIterable subject.path subject.span s

theorem Performs.block {body : Render Unit} {script : Script} (h : Performs body script)
    (kind : BlockKind) (subject : Reference) :
    Performs (block kind subject body) (script.block kind subject) := by
  cases kind with
  | conditional => exact h.conditional subject true
  | negation => exact h.conditional subject false
  | iteration => exact h.iteration subject

end Render

mutual

theorem Node.performs_render : ∀ node : Node, node.render.Performs node.script
  | .literal text _ => Render.performs_emit text
  | .interpolation path span => Render.performs_interpolate path span
  | .block kind subject body _ => (Node.performs_renderAll body).block kind subject

theorem Node.performs_renderAll : ∀ nodes : List Node,
    (Node.renderAll nodes).Performs (Node.scriptAll nodes)
  | [] => Render.performs_pure
  | node :: rest => (Node.performs_render node).bind (Node.performs_renderAll rest)

end

/-! ## Whole renders -/

def Template.yield (t : Template) (context : Context) (options : Options) : Yield :=
  perform options (Node.scriptAll t.nodes options.maxDepth (.ofContext context))

/-- The substitutions of a render in the order in which they are made, whether or not it comes
to an end. -/
def Template.degradations (t : Template) (context : Context) (options : Options)
    (name : Option String) : List Degradation :=
  match Node.renderAll t.nodes ⟨.ofContext context, .start options name, ""⟩ with
  | .ok _ s => s.progress.degradations
  | .error _ s => s.progress.degradations

def Yield.report (y : Yield) : Except RenderError Report :=
  match y.failure with
  | none => .ok ⟨y.output, Degradation.inSourceOrder y.degradations⟩
  | some e => .error e

namespace Template

variable (t : Template) (context : Context) (options : Options) (name : Option String)

theorem yield_of_nodes_eq {t : Template} {node : Node} (h : t.nodes = [node]) (context : Context)
    (options : Options) :
    t.yield context options =
      perform options (node.script options.maxDepth (.ofContext context)) := by
  rw [Template.yield, h]
  exact congrArg (perform options) (List.append_nil _)

theorem yields_renderAll :
    Yields ⟨.ofContext context, .start options name, ""⟩ (t.yield context options)
      (Node.renderAll t.nodes ⟨.ofContext context, .start options name, ""⟩) :=
  Node.performs_renderAll t.nodes _

/-- The report of a render is that of its yield, and it logs each substitution once. -/
theorem render_eq :
    t.render context options name = ⟨(t.yield context options).report,
      (t.yield context options).degradations.flatMap (Progress.start options name).eventsOf⟩ := by
  have hrun := t.yields_renderAll context options name
  rw [Template.render]
  generalize Node.renderAll t.nodes _ = r at hrun
  cases hrun with
  | ok hy => simp [Yield.report, hy, RenderState.after, Progress.warnings, Progress.start]
  | error depth hy =>
      simp [Yield.report, hy, RenderState.after, RenderState.atDepth, Progress.start]

theorem result_render : (t.render context options name).result = (t.yield context options).report :=
  congrArg Outcome.result (t.render_eq context options name)

theorem degradations_eq :
    t.degradations context options name = (t.yield context options).degradations := by
  have hrun := t.yields_renderAll context options name
  rw [Template.degradations]
  generalize Node.renderAll t.nodes _ = r at hrun
  cases hrun with
  | ok hy => simp [RenderState.after, Progress.start]
  | error depth hy => simp [RenderState.after, RenderState.atDepth, Progress.start]

end Template

end Stencil
