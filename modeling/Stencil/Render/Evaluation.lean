import Stencil.Render.Progress
import Stencil.Scope
import Stencil.Template.Tree
import Stencil.Value.Text

/-!
# Rendering

`Node.render` walks a tree once, from left to right. It carries the scope, the progress and the
output so far; a loop puts a frame on the scope for each element and takes it off again whether
or not the body succeeds. `Template.render` starts with a bare context and an empty output.
-/

namespace Stencil

structure RenderState where
  scope : Scope
  progress : Progress
  output : String
  deriving Repr

/-- A part of a render. One that stops with an error leaves the state it had reached. -/
abbrev Render := EStateM RenderError RenderState

namespace Render

def emit (text : String) : Render Unit :=
  modify fun s => { s with output := s.output ++ text }

def resolve? (path : String) : Render (Option Value) := do
  return (← get).scope.resolve? path

/-- A step of the progress. -/
def advance (step : Progress → Except RenderError Progress) : Render Unit := do
  let s ← get
  match step s.progress with
  | .ok progress => set { s with progress }
  | .error e => throw e

/-- Shows the default value for a path that leads nowhere. -/
def emitMissing (path : String) (span : Span) : Render Unit := do
  let s ← get
  match s.progress.missing path span with
  | .ok (text, progress) => set { s with progress, output := s.output ++ text }
  | .error e => throw e

/-- The body one level deeper. -/
def nested (body : Render Unit) : Render Unit := do
  advance Progress.enter
  body
  advance fun p => .ok p.exit

/-- The body with one more frame, which is gone afterwards in any case. -/
def inFrame (frame : LoopFrame) (body : Render Unit) : Render Unit := fun s =>
  match body { s with scope := s.scope.push frame } with
  | .ok value s => .ok value { s with scope := s.scope.pop }
  | .error e s => .error e { s with scope := s.scope.pop }

/-- Null is shown like a value that is not there. -/
def interpolate (path : String) (span : Span) : Render Unit := do
  match ← resolve? path with
  | some value => if value.isNull then emitMissing path span else emit value.render
  | none => emitMissing path span

/-- The body, if the subject is truthy or not as expected. -/
def conditional (subject : Reference) (expected : Bool) (body : Render Unit) : Render Unit := do
  let truthy := ((← resolve? subject.path).map Value.isTruthy).getD false
  if truthy = expected then nested body

/-- The frames of a loop, in order. -/
def framesOf (items : List Value) : List LoopFrame :=
  items.zipIdx.map fun (item, index) => ⟨item, index, items.length⟩

/-- The body once for each element of the subject. -/
def iteration (subject : Reference) (body : Render Unit) : Render Unit := do
  match ← resolve? subject.path with
  | some (.list []) => pure ()
  | some (.list items) => nested ((framesOf items).forM (inFrame · body))
  | _ => advance (·.notIterable subject.path subject.span)

def block (kind : BlockKind) (subject : Reference) (body : Render Unit) : Render Unit :=
  match kind with
  | .conditional => conditional subject true body
  | .negation => conditional subject false body
  | .iteration => iteration subject body

end Render

mutual

def Node.render : Node → Render Unit
  | .literal text _ => Render.emit text
  | .interpolation path span => Render.interpolate path span
  | .block kind subject body _ => Render.block kind subject (Node.renderAll body)

def Node.renderAll : List Node → Render Unit
  | [] => pure ()
  | node :: rest => do
    node.render
    Node.renderAll rest

end

/-! ## Whole templates -/

/-- The output of a render and the substitutions made for it. -/
structure Report where
  output : String
  warnings : List Degradation
  deriving Repr, DecidableEq

/-- Renders a template, under a name if it has one. Nothing is shown of a render that fails. -/
def Template.render (t : Template) (context : Context) (options : Options)
    (name : Option String) : Outcome RenderError Report :=
  match Node.renderAll t.nodes ⟨.ofContext context, .start options name, ""⟩ with
  | .ok _ s => ⟨.ok ⟨s.output, s.progress.warnings⟩, s.progress.events⟩
  | .error e s => ⟨.error e, s.progress.events⟩

end Stencil
