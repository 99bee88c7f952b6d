import Stencil.Context
import Stencil.Error

/-!
# How a command fails

Each failure says what could not be done and to which file or template. Where the reason is an
error of the library itself, it is kept as the cause.
-/

namespace Stencil

inductive CommandError where
  | loadTemplates (directory : String) (cause : TemplateError)
  | inspect (name : String) (cause : TemplateError)
  | validate (name : String) (cause : TemplateError)
  | render (name : String) (cause : TemplateError)
  | readTemplate (path : String) (reason : FileError)
  | readData (path : String) (reason : FileError)
  | parseJson (path : String)
  | parseYaml (path : String)
  | notAMapping (path : String) (cause : ContextError)
  | readConfig (path : String) (reason : FileError)
  | invalidConfig (path : String)
  /-- The validated source has errors. -/
  | invalid (target : String) (errors : List String)
  deriving Repr, DecidableEq

namespace CommandError

def message : CommandError → String
  | loadTemplates directory _ => s!"Failed to load templates from {directory}"
  | inspect name _ => s!"Failed to inspect template '{name}'"
  | validate name _ => s!"Failed to validate '{name}'"
  | render name _ => s!"Failed to render template '{name}'"
  | readTemplate path _ => s!"Failed to read template file {path}"
  | readData path _ => s!"Failed to read data file {path}"
  | parseJson path => s!"Failed to parse JSON data in {path}"
  | parseYaml path => s!"Failed to parse YAML data in {path}"
  | notAMapping path _ => s!"Data in {path} must be a mapping at the top level"
  | readConfig path _ => s!"Failed to read config file {path}"
  | invalidConfig path => s!"Invalid render options in {path}"
  | invalid target errors => s!"{target} is invalid:\n  " ++ "\n  ".intercalate errors

/-- The template error behind a failure. -/
def templateCause? : CommandError → Option TemplateError
  | loadTemplates _ cause => some cause
  | inspect _ cause => some cause
  | validate _ cause => some cause
  | render _ cause => some cause
  | _ => none

/-- The error in the data behind a failure. -/
def contextCause? : CommandError → Option ContextError
  | notAMapping _ cause => some cause
  | _ => none

/-- What the failure goes back to, in words. -/
def reason? : CommandError → Option String
  | readTemplate _ reason => some reason.message
  | readData _ reason => some reason.message
  | readConfig _ reason => some reason.message
  | e => (e.templateCause?.map (·.message)).or (e.contextCause?.map (·.message))

end CommandError

end Stencil
