import Stencil.Command.Error
import Stencil.Engine
import Stencil.Json.Printer
import Stencil.Json.Reader
import Stencil.Toml.Reader
import Stencil.Yaml.Reader

/-!
# Commands

The four things that can be done from the outside: list the templates, show the statistics of
one, validate one, and render one with data from a file. Every command works on the built-in
templates and those of an optional directory, reads files through `Files` alone, and results in
the text to print or in a `CommandError`.
-/

namespace Stencil

/-- What the command line says about render options. It wins over the config file; flags can only
switch something on. -/
structure Overrides where
  strict : Bool := false
  defaultValue : Option String := none
  maxDepth : Option Nat := none
  reportDegradations : Bool := false
  deriving Repr, DecidableEq

def Overrides.applyTo (o : Overrides) (options : Options) : Options where
  strict := o.strict || options.strict
  defaultValue := o.defaultValue.getD options.defaultValue
  maxDepth := o.maxDepth.getD options.maxDepth
  reportDegradations := o.reportDegradations || options.reportDegradations

structure RenderCommand where
  name : String
  data : Option String := none
  templates : Option String := none
  config : Option String := none
  overrides : Overrides := {}
  deriving Repr, DecidableEq

inductive Command where
  | render (request : RenderCommand)
  | list (templates : Option String)
  | validate (target : String) (templates : Option String)
  | stats (name : String) (templates : Option String)
  deriving Repr, DecidableEq

namespace Command

/-! ## Inputs -/

/-- The built-in templates and those of a directory. -/
def loadEngine (files : Files) (templates : Option String) : Outcome CommandError Engine :=
  match templates with
  | none => pure .standard
  | some directory => do
    let (store, outcome) := Store.builtin.registerDirectory files directory
    let stems ← outcome.mapError (.loadTemplates directory)
    Outcome.tell (.loadedDirectory directory stems.length)
    return { store }

/-- Data may be nested this many levels deep. -/
def dataDepth : Nat := 127

def isYaml (path : String) : Bool :=
  match FilePath.extension? path with
  | some extension => extension = "yml" || extension = "yaml"
  | none => false

def parseData (path text : String) : Except CommandError Json :=
  if isYaml path then
    match Yaml.read? text with
    | some data => .ok data
    | none => .error (.parseYaml path)
  else
    match Json.read? dataDepth text with
    | some data => .ok data
    | none => .error (.parseJson path)

def loadData (files : Files) (path : String) : Except CommandError Context := do
  let text ← (files.readText path).mapError (.readData path)
  let data ← parseData path text
  (Context.ofJson data).mapError (.notAMapping path)

def parseOptions (path text : String) : Except CommandError Options :=
  match Toml.read? text >>= Options.ofJson? with
  | some options => .ok options
  | none => .error (.invalidConfig path)

def loadOptions (files : Files) (config : Option String) (overrides : Overrides) :
    Except CommandError Options :=
  match config with
  | none => .ok (overrides.applyTo {})
  | some path => do
    let text ← (files.readText path).mapError (.readConfig path)
    return overrides.applyTo (← parseOptions path text)

/-! ## The commands -/

def runList (files : Files) (templates : Option String) : Outcome CommandError String := do
  let engine ← loadEngine files templates
  return String.join (engine.store.names.map (· ++ "\n"))

def runStats (files : Files) (name : String) (templates : Option String) :
    Outcome CommandError String := do
  let engine ← loadEngine files templates
  let stats ← .ofExcept ((engine.stats name).mapError (.inspect name))
  return stats.toJson.pretty ++ "\n"

/-- The survey of a source, and of one that passes also the error that keeps it from
compiling. -/
def validateFully (source : String) : Validation :=
  let survey := Validation.ofSource source
  match survey.isValid, Template.compile source with
  | true, .error e => ⟨survey.errors ++ [(TemplateError.parse none e).message]⟩
  | _, _ => survey

def verdict (target : String) (v : Validation) : Except CommandError String :=
  if v.isValid then .ok (target ++ ": valid\n") else .error (.invalid target v.errors)

/-- The target is a file if there is one at that path, and else the name of a template. -/
def runValidate (files : Files) (target : String) (templates : Option String) :
    Outcome CommandError String := do
  if files.isFile target then
    Outcome.tell (.validatingFile target)
    let source ← .ofExcept ((files.readText target).mapError (.readTemplate target))
    .ofExcept (verdict target (validateFully source))
  else
    let engine ← loadEngine files templates
    let validation ← .ofExcept ((engine.validate target).mapError (.validate target))
    .ofExcept (verdict target validation)

def runRender (files : Files) (r : RenderCommand) : Outcome CommandError String := do
  let engine ← loadEngine files r.templates
  let options ← .ofExcept (loadOptions files r.config r.overrides)
  let context ←
    match r.data with
    | some path => .ofExcept (loadData files path)
    | none => pure .empty
  Outcome.tell (.resolvedOptions options)
  let report ← ({ engine with options }.report r.name context).mapError (.render r.name)
  if !report.warnings.isEmpty then
    Outcome.tell (.renderedWithGaps r.name report.warnings.length)
  return report.output

/-- The text that a command prints. -/
def run (files : Files) : Command → Outcome CommandError String
  | render request => runRender files request
  | list templates => runList files templates
  | validate target templates => runValidate files target templates
  | stats name templates => runStats files name templates

end Command

end Stencil
