import Stencil.Template.Node

/-!
# Built-in templates

Four templates that are always at hand: a progress report, a checklist of features, a list of
recommendations and a manifest. They are written here with one function for each kind of
marker; their source is the plain text that results.
-/

namespace Stencil.Builtin

/-- A block around the given parts. -/
def block (kind : BlockKind) (path : String) (body : List String) : String :=
  markerText ("#" ++ kind.keyword ++ " " ++ path) ++ String.join body ++ kind.closerText

def given (path : String) (body : List String) : String := block .conditional path body

def without (path : String) (body : List String) : String := block .negation path body

def forEach (path : String) (body : List String) : String := block .iteration path body

def progressReport : String := String.join [
  "# ", markerText "project", " Progress Report\n\n",
  given "summary" [markerText "summary", "\n\n"],
  "Completed: ", markerText "completed", " of ", markerText "total", " tasks\n",
  forEach "phases" ["- ", markerText "name", ": ", given "done" ["done"],
    without "done" ["in progress"], "\n"],
  given "blockers" ["\n## Blockers\n", forEach "blockers" ["- ", markerText "this", "\n"]]]

def featureList : String := String.join [
  "## Features\n",
  forEach "features" ["- [", given "done" ["x"], without "done" [" "], "] ", markerText "name",
    given "description" [": ", markerText "description"], "\n"],
  without "features" ["_No features recorded._\n"]]

def recommendations : String := String.join [
  "## Recommendations\n",
  forEach "recommendations" ["### ", markerText "title",
    given "priority" [" (", markerText "priority", ")"], "\n", markerText "rationale", "\n",
    without "@last" ["\n"]],
  without "recommendations" ["No recommendations.\n"]]

def manifest : String := String.join [
  "name: ", markerText "name", "\nversion: ", markerText "version", "\n",
  given "description" ["description: ", markerText "description", "\n"],
  given "files" ["files:\n", forEach "files" ["  - ", markerText "this", "\n"]]]

/-- The names and sources, in the order in which they are made known. -/
def all : List (String × String) :=
  [("progress-report", progressReport), ("feature-list", featureList),
    ("recommendations", recommendations), ("manifest", manifest)]

def names : List String := all.map Prod.fst

def source? (name : String) : Option String := all.lookup name

def isName (name : String) : Bool := names.contains name

end Stencil.Builtin
