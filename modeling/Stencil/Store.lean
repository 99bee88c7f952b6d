import Stencil.Builtin
import Stencil.Bindings
import Stencil.Event
import Stencil.Files.Access
import Stencil.Files.Path
import Stencil.Template.Tree

/-!
# The template store

A store binds names to compiled templates. A source is compiled when it is registered, so what
is in the store can be rendered, and a source that does not compile leaves the store as it was.
Templates can also be registered from a file, under the stem of its name, and from all template
files of a directory.
-/

namespace Stencil

structure Store where
  templates : Bindings Template
  deriving Repr

namespace Store

def empty : Store := ⟨[]⟩

def get? (s : Store) (name : String) : Option Template := s.templates.get? name

def contains (s : Store) (name : String) : Bool := s.templates.contains name

def source? (s : Store) (name : String) : Option String := (s.get? name).map (·.source)

/-- The names in ascending order. -/
def names (s : Store) : List String := s.templates.orderedNames

def size (s : Store) : Nat := s.templates.length

def isEmpty (s : Store) : Bool := s.templates.isEmpty

/-- The template of a name that has to be there. -/
def require (s : Store) (name : String) : Except TemplateError Template :=
  match s.get? name with
  | some template => .ok template
  | none => .error (.notFound name)

/-! ## Registration -/

/-- Compiles a source and binds it to a name, in place of what the name had. -/
def register (s : Store) (name source : String) : Store × Outcome TemplateError Unit :=
  match Template.compile source with
  | .ok template =>
    (⟨s.templates.insert name template⟩, .tell (.registered name (s.contains name)))
  | .error e => (s, .ofExcept (.error (.parse (some name) e)))

/-- Removes a name, and says whether it was there. -/
def unregister {ε : Type} (s : Store) (name : String) : Store × Outcome ε Bool :=
  if s.contains name then (⟨s.templates.erase name⟩, ⟨.ok true, [.unregistered name]⟩)
  else (s, ⟨.ok false, []⟩)

/-- Registers a source that had to be read, and returns its name. -/
def registerRead (s : Store) (name : String) (source : Except FileError String) :
    Store × Outcome TemplateError String :=
  match source with
  | .error e => (s, .ofExcept (.error (.file e)))
  | .ok source =>
    let (s, outcome) := s.register name source
    (s, do outcome; return name)

/-- Registers sources one after the other up to the first that fails. -/
def registerEach (s : Store) : List (String × Except FileError String) →
    Store × Outcome TemplateError (List String)
  | [] => (s, pure [])
  | (name, source) :: rest =>
    match s.registerRead name source with
    | (s, ⟨.error e, events⟩) => (s, ⟨.error e, events⟩)
    | (s, ⟨.ok name, events⟩) =>
      let (s, outcome) := s.registerEach rest
      (s, ⟨outcome.result.map (name :: ·), events ++ outcome.events⟩)

/-- The built-in templates. -/
def builtin : Store :=
  Builtin.all.foldl (fun s (name, source) => (s.register name source).1) empty

/-! ## Registration from files -/

/-- The extension of template files. -/
def templateExtension : String := "template"

def registerFile (s : Store) (files : Files) (path : String) :
    Store × Outcome TemplateError String :=
  match FilePath.stem? path with
  | none => (s, .ofExcept (.error (.file (.notATemplate path))))
  | some name => s.registerRead name (files.readText path)

/-- The template files among the entries of a directory, in ascending order. -/
def templateFiles (files : Files) (directory : String) (names : List String) : List String :=
  (Text.orderedSet names).filter fun name =>
    (FilePath.splitName name).2 = some templateExtension &&
      files.isFile (FilePath.join directory name)

/-- Registers the template files of a directory, and returns their names in the order of the
files. -/
def registerDirectory (s : Store) (files : Files) (directory : String) :
    Store × Outcome TemplateError (List String) :=
  match files.listNames directory with
  | .error e => (s, .ofExcept (.error (.file e)))
  | .ok names =>
    s.registerEach ((templateFiles files directory names).map fun name =>
      ((FilePath.splitName name).1, files.readText (FilePath.join directory name)))

end Store

end Stencil
