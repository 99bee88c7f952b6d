/-!
# File paths

A path is a text whose parts are separated by slashes. The parts that only hold the place, the
empty one and `.`, never name a file; the name of the file is the last part that remains, and it
is cut at its last dot into a stem and an extension. A dot at the very start cuts nothing off.

A file system may have names that are not UTF-8, and such a name has a stem only after a lossy
conversion. They are no texts and have no place here.
-/

namespace Stencil.FilePath

def parts (path : String) : List String :=
  ((path.toList.splitOn '/').map String.ofList).filter fun part => part ≠ "" && part ≠ "."

/-- The part that names the file; the parent directory is not a name. -/
def fileName? (path : String) : Option String :=
  (parts path).getLast?.filter (· ≠ "..")

/-- The name up to its last dot, and what follows that dot. -/
def splitName (name : String) : String × Option String :=
  let after := name.toList.reverse.takeWhile (· ≠ '.')
  match name.toList.reverse.dropWhile (· ≠ '.') with
  | [] => (name, none)
  | ['.'] => (name, none)
  | _ :: stem => (String.ofList stem.reverse, some (String.ofList after.reverse))

def stem? (path : String) : Option String := (fileName? path).map fun name => (splitName name).1

def extension? (path : String) : Option String :=
  (fileName? path).bind fun name => (splitName name).2

/-- The path of an entry of a directory. -/
def join (directory name : String) : String :=
  if directory.isEmpty || directory.toList.getLast? = some '/' then directory ++ name
  else directory ++ "/" ++ name

/-- Whether a path starts at the root directory. -/
def isAbsolute (path : String) : Bool := path.toList.head? = some '/'

/-- Whether a path can only mean a directory. -/
def endsInSlash (path : String) : Bool := path.toList.getLast? = some '/'

end Stencil.FilePath
