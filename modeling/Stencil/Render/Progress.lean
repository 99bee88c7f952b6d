import Stencil.Event
import Stencil.Options

/-!
# The progress of a render

Apart from its output a render has to know how deep it is in blocks and what it had to
substitute. `Progress` holds both, with the options that decide whether a step is allowed. A step
that is not allowed leaves the progress as it was.
-/

namespace Stencil

structure Progress where
  options : Options
  /-- The name of the template, for the log. -/
  template : Option String
  /-- How many blocks enclose the place that is being rendered. -/
  depth : Nat
  /-- The substitutions so far, oldest first. -/
  degradations : List Degradation
  events : List Event
  deriving Repr

namespace Progress

def start (options : Options) (template : Option String) : Progress :=
  ⟨options, template, 0, [], []⟩

/-- Goes into the body of a block. -/
def enter (p : Progress) : Except RenderError Progress :=
  if p.depth < p.options.maxDepth then .ok { p with depth := p.depth + 1 }
  else .error (.tooDeep p.options.maxDepth)

/-- Comes out of the body of a block. -/
def exit (p : Progress) : Progress := { p with depth := p.depth - 1 }

/-- The events that a degradation gives rise to. -/
def eventsOf (p : Progress) (d : Degradation) : List Event :=
  if p.options.reportDegradations then [.degraded p.template d] else []

/-- Records a substitution, or refuses it when the options are strict. -/
def degrade (p : Progress) (d : Degradation) : Except RenderError Progress :=
  if p.options.strict then .error (.ofDegradation d)
  else .ok { p with degradations := p.degradations ++ [d], events := p.events ++ p.eventsOf d }

/-- What to show for a path that leads nowhere. -/
def missing (p : Progress) (path : String) (span : Span) :
    Except RenderError (String × Progress) :=
  (p.degrade ⟨.missing, path, span⟩).map (p.options.defaultValue, ·)

/-- A loop whose subject is no list. -/
def notIterable (p : Progress) (path : String) (span : Span) : Except RenderError Progress :=
  p.degrade ⟨.notIterable, path, span⟩

/-- The substitutions in the order of the places they are about. -/
def warnings (p : Progress) : List Degradation := Degradation.inSourceOrder p.degradations

end Progress

end Stencil
