import Stencil.Error
import Stencil.Options

/-!
# Log events

What the library and its commands have to tell besides their results. An operation that tells
something returns an `Outcome`, its result together with the events in the order in which they
arose; outcomes are chained like plain results, and a failure keeps the events before it.
-/

namespace Stencil

inductive Level where
  | debug
  | info
  | warn
  deriving Repr, DecidableEq

def Level.name : Level → String
  | debug => "DEBUG"
  | info => "INFO"
  | warn => "WARN"

inductive Event where
  | registered (template : String) (replaced : Bool)
  | unregistered (template : String)
  | rendering (template : String) (strict : Bool)
  /-- A substitution in a template, which may have no name. -/
  | degraded (template : Option String) (degradation : Degradation)
  /-- A template failed with an error, and another is rendered in its place. -/
  | fallingBack (template fallback : String) (error : TemplateError)
  /-- A template was rendered with so many substitutions. -/
  | renderedWithGaps (template : String) (count : Nat)
  /-- So many templates of a directory were registered. -/
  | loadedDirectory (directory : String) (count : Nat)
  | resolvedOptions (options : Options)
  | validatingFile (path : String)
  deriving Repr, DecidableEq

namespace Event

def level : Event → Level
  | registered .. => .debug
  | unregistered .. => .debug
  | rendering .. => .debug
  | degraded .. => .warn
  | fallingBack .. => .warn
  | renderedWithGaps .. => .info
  | loadedDirectory .. => .debug
  | resolvedOptions .. => .debug
  | validatingFile .. => .debug

def message : Event → String
  | registered .. => "Registered template"
  | unregistered .. => "Unregistered template"
  | rendering .. => "Rendering template"
  | degraded _ degradation => degradation.message
  | fallingBack .. => "Falling back to alternate template"
  | renderedWithGaps .. => "Rendered with missing or non-iterable data"
  | loadedDirectory .. => "Loaded template directory"
  | resolvedOptions .. => "Resolved render options"
  | validatingFile .. => "Validating template file"

/-- What stands for the name of a template that has none. -/
def inlineName : String := "<inline>"

/-- The data that goes with the message. -/
def fields : Event → List (String × Json)
  | registered template replaced =>
    [("template", .string template), ("replaced", .bool replaced)]
  | unregistered template => [("template", .string template)]
  | rendering template strict => [("template", .string template), ("strict", .bool strict)]
  | degraded template degradation =>
    [("template", .string (template.getD inlineName)), ("offset", .int degradation.span.start)]
  | fallingBack template fallback error =>
    [("template", .string template), ("fallback", .string fallback),
      ("error", .string error.message)]
  | renderedWithGaps template count => [("template", .string template), ("count", .int count)]
  | loadedDirectory directory count => [("dir", .string directory), ("count", .int count)]
  | resolvedOptions options => [("options", options.record)]
  | validatingFile path => [("path", .string path)]

end Event

/-! ## Results with events -/

structure Outcome (ε α : Type) where
  result : Except ε α
  events : List Event
  deriving Repr

namespace Outcome

variable {ε ε' α β : Type}

def bind (o : Outcome ε α) (f : α → Outcome ε β) : Outcome ε β :=
  match o.result with
  | .ok value => ⟨(f value).result, o.events ++ (f value).events⟩
  | .error e => ⟨.error e, o.events⟩

instance : Monad (Outcome ε) where
  pure value := ⟨.ok value, []⟩
  bind := bind

def ofExcept (result : Except ε α) : Outcome ε α := ⟨result, []⟩

/-- Nothing but an event. -/
def tell (event : Event) : Outcome ε Unit := ⟨.ok (), [event]⟩

def mapError (f : ε → ε') (o : Outcome ε α) : Outcome ε' α := ⟨o.result.mapError f, o.events⟩

/-- The outcome, or what `f` makes of its error after the events so far. -/
def orElse (o : Outcome ε α) (f : ε → Outcome ε' α) : Outcome ε' α :=
  match o.result with
  | .ok value => ⟨.ok value, o.events⟩
  | .error e => ⟨(f e).result, o.events ++ (f e).events⟩

end Outcome

end Stencil
