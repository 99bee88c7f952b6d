import Stencil.Render.Degradation
import Stencil.Template.ParseError

/-!
# Errors

What can go wrong with a named template: it is not there, its source does not parse, a render of
it has to stop, or the file it should come from cannot be read.
-/

namespace Stencil

/-- Why a render stops without output. -/
inductive RenderError where
  | missing (path : String)
  | notIterable (path : String)
  | tooDeep (maxDepth : Nat)
  deriving Repr, DecidableEq

namespace RenderError

/-- What a degradation becomes when none is allowed. -/
def ofDegradation (d : Degradation) : RenderError :=
  match d.kind with
  | .missing => missing d.path
  | .notIterable => notIterable d.path

def message : RenderError → String
  | missing path => s!"Missing variable: {path}"
  | notIterable path => s!"Value at '{path}' is not iterable"
  | tooDeep maxDepth => s!"Maximum nesting depth exceeded (depth > {maxDepth})"

end RenderError

inductive FileError where
  | notFound
  | notADirectory
  | isADirectory
  /-- The content is not UTF-8. -/
  | invalidData
  /-- The path names no file that could be a template. -/
  | notATemplate (path : String)
  | other (reason : String)
  deriving Repr, DecidableEq

def FileError.message : FileError → String
  | notFound => "no such file or directory"
  | notADirectory => "not a directory"
  | isADirectory => "is a directory"
  | invalidData => "stream did not contain valid UTF-8"
  | notATemplate path => s!"not a template file: {path}"
  | other reason => reason

inductive TemplateError where
  | notFound (name : String)
  /-- A source that does not parse, under its name if it has one. -/
  | parse (name : Option String) (error : ParseError)
  | render (error : RenderError)
  | file (error : FileError)
  deriving Repr, DecidableEq

namespace TemplateError

def parseMessage (name : Option String) (e : ParseError) : String :=
  match name with
  | none => e.message
  | some name => s!"{name}: {e.message}"

def message : TemplateError → String
  | notFound name => s!"Template not found: {name}"
  | parse name e => s!"Parse error: {parseMessage name e}"
  | render e => e.message
  | file e => s!"I/O error: {e.message}"

end TemplateError

end Stencil
