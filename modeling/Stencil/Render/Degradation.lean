import Stencil.Template.Node

/-!
# Degradations

A lenient render goes on where data is missing: it shows the default value in place of a path
that leads nowhere, and skips a loop whose subject is no list. Each such substitution is a
degradation, which knows the path and the place of the directive it is about.
-/

namespace Stencil

inductive DegradationKind where
  | missing
  | notIterable
  deriving Repr, DecidableEq

structure Degradation where
  kind : DegradationKind
  path : String
  span : Span
  deriving Repr, DecidableEq

namespace Degradation

def message (d : Degradation) : String :=
  match d.kind with
  | .missing => s!"missing variable '{d.path}'"
  | .notIterable => s!"'{d.path}' is not iterable"

/-- In the order of the places they are about; at one place in the order given. -/
def inSourceOrder (ds : List Degradation) : List Degradation :=
  ds.mergeSort fun a b => a.span.start ≤ b.span.start

end Degradation

end Stencil
