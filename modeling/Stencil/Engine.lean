import Stencil.Render.Evaluation
import Stencil.Store
import Stencil.Survey.Stats
import Stencil.Survey.Validation

/-!
# The engine

An engine is a store together with the options that its renders use. It renders templates by
name, one at a time, several in a row, or one in place of another that fails; none of this
changes the store.
-/

namespace Stencil

structure Engine where
  store : Store
  options : Options := {}
  deriving Repr

namespace Engine

/-- The engine that knows the built-in templates. -/
def standard : Engine := { store := .builtin }

def reportWith (e : Engine) (options : Options) (name : String) (context : Context) :
    Outcome TemplateError Report := do
  let template ← Outcome.ofExcept (e.store.require name)
  Outcome.tell (.rendering name options.strict)
  (template.render context options (some name)).mapError .render

/-- Renders a template by name, and tells what it had to substitute. -/
def report (e : Engine) (name : String) (context : Context) : Outcome TemplateError Report :=
  e.reportWith e.options name context

def renderWith (e : Engine) (options : Options) (name : String) (context : Context) :
    Outcome TemplateError String := do
  return (← e.reportWith options name context).output

def render (e : Engine) (name : String) (context : Context) : Outcome TemplateError String :=
  e.renderWith e.options name context

/-- Renders several templates, each with its own data; the first that fails ends it. -/
def renderAll (e : Engine) : List (String × Context) → Outcome TemplateError (List String)
  | [] => pure []
  | (name, context) :: rest => do
    let output ← e.render name context
    return output :: (← e.renderAll rest)

def renderJoined (e : Engine) (separator : String) (requests : List (String × Context)) :
    Outcome TemplateError String := do
  return separator.intercalate (← e.renderAll requests)

/-- Renders `fallback` if the template itself cannot be rendered. -/
def renderWithFallback (e : Engine) (name fallback : String) (context : Context) :
    Outcome TemplateError String :=
  (e.render name context).orElse fun error => do
    Outcome.tell (.fallingBack name fallback error)
    e.render fallback context

/-- The source of a name that has to be there. -/
def source (e : Engine) (name : String) : Except TemplateError String :=
  (e.store.require name).map (·.source)

def validate (e : Engine) (name : String) : Except TemplateError Validation :=
  (e.source name).map Validation.ofSource

def stats (e : Engine) (name : String) : Except TemplateError Stats :=
  (e.source name).map Stats.ofSource

end Engine

end Stencil
