import Stencil.Builtin
import Stencil.Proofs.Template.Draft

/-!
# The built-in templates compile

Each built-in source is the text of a well-formed forest of drafts, so a store can be filled with
all of them (`Builtin.exists_compile`).
-/

namespace Stencil

theorem Text.isSeparator_space : isSeparator ' ' = true := rfl

/-- A block with one blank before its path. -/
def Draft.plain (kind : BlockKind) (path : String) (body : List Draft) : Draft :=
  .block kind ⟨' ', [], Text.isSeparator_space, List.all_nil⟩ path body

theorem Draft.WellFormed.plain {followed : Bool} {kind : BlockKind} {path : String}
    {body rest : List Draft} (hpath : Path.isValid path = true) (hbody : WellFormed true body)
    (hrest : WellFormed followed rest) :
    WellFormed followed (Draft.plain kind path body :: rest) :=
  .block hpath hbody hrest

/-- A text without an opening brace may stand wherever no other literal comes next. -/
theorem Draft.WellFormed.literal_of_not_mem {followed : Bool} {text : String} {rest : List Draft}
    (htext : text ≠ "" ∧ '{' ∉ text.toList) (hnext : ∀ next ∈ rest.head?, ¬next.IsLiteral)
    (hrest : WellFormed followed rest) : WellFormed followed (.literal text :: rest) := by
  obtain ⟨hempty, hbrace⟩ := htext
  refine .literal hempty (fun hpair => hbrace (hpair.subset (List.mem_cons_self ..))) hnext ?_ hrest
  exact fun _ hlast => hbrace (List.mem_of_getLast? hlast)

theorem Draft.WellFormed.exists_compile {drafts : List Draft} (h : WellFormed false drafts)
    (hheight : Node.heightAll (nodesAt 0 drafts) ≤ maxNesting) :
    ∃ t, Template.compile (textAll drafts) = .ok t := by
  have hspells := h.spells 0
  rw [← h.ofSource_textAll, Nat.zero_add] at hspells
  exact ⟨⟨_, _⟩, Template.compile_eq_ok_iff.mpr
    ⟨rfl, Node.parse_eq_ok_iff.mpr ⟨hspells, hheight⟩⟩⟩

namespace Builtin

open Draft

def progressReportDrafts : List Draft := [
  .literal "# ", .interpolation "project", .literal " Progress Report\n\n",
  plain .conditional "summary" [.interpolation "summary", .literal "\n\n"],
  .literal "Completed: ", .interpolation "completed", .literal " of ", .interpolation "total",
  .literal " tasks\n",
  plain .iteration "phases" [.literal "- ", .interpolation "name", .literal ": ",
    plain .conditional "done" [.literal "done"], plain .negation "done" [.literal "in progress"],
    .literal "\n"],
  plain .conditional "blockers" [.literal "\n## Blockers\n",
    plain .iteration "blockers" [.literal "- ", .interpolation "this", .literal "\n"]]]

def featureListDrafts : List Draft := [
  .literal "## Features\n",
  plain .iteration "features" [.literal "- [", plain .conditional "done" [.literal "x"],
    plain .negation "done" [.literal " "], .literal "] ", .interpolation "name",
    plain .conditional "description" [.literal ": ", .interpolation "description"],
    .literal "\n"],
  plain .negation "features" [.literal "_No features recorded._\n"]]

def recommendationsDrafts : List Draft := [
  .literal "## Recommendations\n",
  plain .iteration "recommendations" [.literal "### ", .interpolation "title",
    plain .conditional "priority" [.literal " (", .interpolation "priority", .literal ")"],
    .literal "\n", .interpolation "rationale", .literal "\n",
    plain .negation "@last" [.literal "\n"]],
  plain .negation "recommendations" [.literal "No recommendations.\n"]]

def manifestDrafts : List Draft := [
  .literal "name: ", .interpolation "name", .literal "\nversion: ", .interpolation "version",
  .literal "\n",
  plain .conditional "description" [.literal "description: ", .interpolation "description",
    .literal "\n"],
  plain .conditional "files" [.literal "files:\n",
    plain .iteration "files" [.literal "  - ", .interpolation "this", .literal "\n"]]]

/-- The built-in templates as they are written. -/
def drafts : List (String × List Draft) :=
  [("progress-report", progressReportDrafts), ("feature-list", featureListDrafts),
    ("recommendations", recommendationsDrafts), ("manifest", manifestDrafts)]

theorem all_eq : all = drafts.map fun (name, drafts) => (name, textAll drafts) := by
  decide +kernel

theorem wellFormed_drafts : ∀ entry ∈ drafts, WellFormed false entry.2 := by
  rw [drafts]
  simp only [List.forall_mem_cons]
  refine ⟨?_, ?_, ?_, ?_, by simp⟩
  -- The shape of each forest says which constructor comes next.
  all_goals
    repeat first
      | exact .nil
      | refine .literal_of_not_mem (by decide) (by simp [IsLiteral, plain]) ?_
      | refine .interpolation rfl ?_
      | refine .plain rfl ?_ ?_

theorem heightAll_drafts :
    ∀ entry ∈ drafts, Node.heightAll (nodesAt 0 entry.2) ≤ maxNesting := by
  decide

/-- Every built-in source compiles. -/
theorem exists_compile : ∀ entry ∈ all, ∃ t, Template.compile entry.2 = .ok t := by
  intro entry hentry
  rw [all_eq] at hentry
  obtain ⟨⟨name, forest⟩, hmem, rfl⟩ := List.mem_map.mp hentry
  exact (wellFormed_drafts _ hmem).exists_compile (heightAll_drafts _ hmem)

end Builtin

end Stencil
