import Stencil.Context
import Stencil.Template.Path

/-!
# Scopes

A scope is where paths are looked up: a context at the bottom and a frame for every loop
iteration that is under way. Names of loop state and the bare `this` mean the innermost frame
alone; any other path starts at the innermost frame that knows its first segment and goes on
through nested maps.
-/

namespace Stencil

/-- One iteration of a loop: the current element, its place counted from zero, and how many
elements there are. -/
structure LoopFrame where
  item : Value
  index : Nat
  length : Nat
  deriving Repr

/-- The names of the loop state come before the fields of the element. -/
def LoopFrame.lookup? (f : LoopFrame) (name : String) : Option Value :=
  if name = "this" then some f.item
  else if name = "@index" then some (.number (.ofNat f.index))
  else if name = "@first" then some (.bool (f.index = 0))
  else if name = "@last" then some (.bool (f.index + 1 = f.length))
  else if name = "@length" then some (.number (.ofNat f.length))
  else f.item.field? name

structure Scope where
  context : Context
  /-- The frames of the loops under way, innermost first. -/
  loops : List LoopFrame
  deriving Repr

namespace Scope

def ofContext (context : Context) : Scope := ⟨context, []⟩

/-- How many frames there are, the context among them. -/
def depth (s : Scope) : Nat := s.loops.length + 1

def push (s : Scope) (frame : LoopFrame) : Scope := { s with loops := frame :: s.loops }

/-- Without the innermost loop frame. The context always stays. -/
def pop (s : Scope) : Scope := { s with loops := s.loops.tail }

@[simp] theorem pop_push (s : Scope) (frame : LoopFrame) : (s.push frame).pop = s := rfl

/-- What the innermost frame knows under a name. -/
def innermost? (s : Scope) (name : String) : Option Value :=
  match s.loops with
  | [] => s.context.get? name
  | frame :: _ => frame.lookup? name

/-- What the innermost frame that knows a name has for it. -/
def outward? (s : Scope) (name : String) : Option Value :=
  (s.loops.findSome? (·.lookup? name)).or (s.context.get? name)

def resolve? (s : Scope) (path : String) : Option Value :=
  if Path.isReserved path || path = "this" then s.innermost? path
  else
    match Path.segments path with
    | [] => none
    | first :: rest => (s.outward? first).bind (·.getPath? rest)

end Scope

end Stencil
