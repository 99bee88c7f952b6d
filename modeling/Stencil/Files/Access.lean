import Stencil.Error

/-!
# Access to files

What the library needs to know of a file system: for each path, whether there is a file or a
directory and what it holds. A file may be there and yet not be read. `Files` says so for one
moment; `readText` and `listNames` are the two ways in which the library reads. Paths and the names
in a directory are texts, so files whose names are not UTF-8 are left out; contents may be any
bytes.
-/

namespace Stencil

inductive FileEntry where
  /-- A file, and what comes of reading it. -/
  | file (content : Except FileError ByteArray)
  | directory (names : List String)

/-- The entry at each path. -/
def Files : Type := String → Except FileError FileEntry

namespace Files

def readText (files : Files) (path : String) : Except FileError String :=
  match files path with
  | .error e => .error e
  | .ok (.directory _) => .error .isADirectory
  | .ok (.file (.error e)) => .error e
  | .ok (.file (.ok content)) =>
    match String.fromUTF8? content with
    | some text => .ok text
    | none => .error .invalidData

def listNames (files : Files) (path : String) : Except FileError (List String) :=
  match files path with
  | .error e => .error e
  | .ok (.directory names) => .ok names
  | .ok (.file _) => .error .notADirectory

def isFile (files : Files) (path : String) : Bool :=
  match files path with
  | .ok (.file _) => true
  | _ => false

end Files

end Stencil
