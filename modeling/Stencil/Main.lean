import Stencil.Command.Line

/-!
# The program

The outer layer: it reads the files that a command line can need, hands them to
`CommandLine.run`, and prints what that returns.
-/

namespace Stencil

/-- What went wrong with a file, in the library's terms. -/
def FileError.ofIOError : IO.Error → FileError
  | .noFileOrDirectory .. => .notFound
  | .inappropriateType .. => .notADirectory
  | e => .other (toString e)

def readContent (path : String) : IO (Except FileError ByteArray) := do
  try
    return .ok (← IO.FS.readBinFile path)
  catch e =>
    return .error (FileError.ofIOError e)

/-- The entry at a path. -/
def readEntry (path : String) : IO (Except FileError FileEntry) := do
  try
    match (← (System.mkFilePath [path]).metadata).type with
    | .dir =>
      let entries ← (System.mkFilePath [path]).readDir
      return .ok (.directory (entries.toList.map (·.fileName)))
    | _ => return .ok (.file (← readContent path))
  catch e =>
    return .error (FileError.ofIOError e)

/-- The paths that a command reads. -/
def Command.paths : Command → List String
  | .render request => request.data.toList ++ request.config.toList ++ request.templates.toList
  | .list templates => templates.toList
  | .validate target templates => target :: templates.toList
  | .stats _ templates => templates.toList

/-- The entry at a path and, if it is a directory, those in it. -/
def readEntries (path : String) : IO (List (String × Except FileError FileEntry)) := do
  let entry ← readEntry path
  let below ←
    match entry with
    | .ok (.directory names) =>
      names.mapM fun name => do
        let child := FilePath.join path name
        return (child, ← readEntry child)
    | _ => pure []
  return (path, entry) :: below

/-- The files that a command line can need. -/
def readFiles (words : List String) : IO Files := do
  match CommandLine.parse words with
  | .ok command =>
    let entries ← command.paths.mapM readEntries
    return fun path => (entries.flatten.lookup path).getD (.error .notFound)
  | .error _ => return fun _ => .error .notFound

end Stencil

open Stencil in
def main (words : List String) : IO UInt32 := do
  let exit := CommandLine.run (← readFiles words) words
  IO.print exit.output
  match exit with
  | .failure e =>
    IO.eprintln s!"Error: {e.message}"
    if let some reason := e.reason? then
      IO.eprintln s!"\nCaused by:\n    {reason}"
  | .misuse => IO.eprintln CommandLine.helpText
  | .success _ => pure ()
  return exit.code.toUInt32
