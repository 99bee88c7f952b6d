import Stencil.Files.Tree
import Stencil.Proofs.Store.Reachable
import Stencil.Proofs.Text.Continuation

/-!
# Template files of a directory

The template files of a directory are registered one after the other, each under the stem of its
name. They are visited in the order of their whole names, extension included. Two stems that differ
before either ends are in the same order as their files, but of a stem and one that continues it the
shorter one comes first, whereas its file comes first only if the extension precedes the
continuation. So the names that come back are those of the files, each once
(`Store.registerDirectory_names`), but they need not be in ascending order
(`Store.registerDirectory_unsorted`).
-/

namespace Stencil

/-! ## Names of template files -/

/-- A name is cut into a stem and an extension just if these are what is around its last dot, and
that dot is not its start. -/
theorem FilePath.splitName_eq_iff {name stem extension : String} :
    splitName name = (stem, some extension) ↔
      name = stem ++ ("." ++ extension) ∧ stem ≠ "" ∧ '.' ∉ extension.toList := by
  unfold splitName
  constructor
  · intro h
    have hname := name.toList.reverse.takeWhile_append_dropWhile (p := (· ≠ '.'))
    have hdot := name.toList.reverse.head?_dropWhile_not (· ≠ '.')
    have hafter : ∀ c ∈ name.toList.reverse.takeWhile (· ≠ '.'), c ≠ '.' := fun c hc =>
      of_decide_eq_true (List.mem_takeWhile_imp (p := (· ≠ '.')) hc)
    generalize name.toList.reverse.takeWhile (· ≠ '.') = after at *
    generalize name.toList.reverse.dropWhile (· ≠ '.') = upTo at *
    dsimp only at h
    split at h
    · cases h
    · cases h
    · rename_i c rest hnotStart
      obtain ⟨rfl, hextension⟩ := Prod.mk.inj h
      obtain rfl := Option.some.inj hextension
      have hc : c = '.' := by simpa using hdot
      subst hc
      refine ⟨?_, ?_, ?_⟩
      · rw [← String.toList_inj, ← List.reverse_inj, ← hname]
        simp
      · exact fun hempty => hnotStart rfl (by simpa using hempty)
      · simpa using fun hmem => hafter '.' hmem rfl
  · rintro ⟨rfl, hstem, hextension⟩
    have hreverse : (stem ++ ("." ++ extension)).toList.reverse =
        extension.toList.reverse ++ '.' :: stem.toList.reverse := by
      simp
    have hafter : ∀ c ∈ extension.toList.reverse, decide (c ≠ '.') = true := by
      intro c hc
      refine decide_eq_true fun heq => hextension ?_
      exact heq ▸ List.mem_reverse.mp hc
    have hstart : stem.toList.reverse ≠ [] := by simpa using hstem
    rw [hreverse, List.takeWhile_append_of_pos hafter, List.dropWhile_append_of_pos hafter]
    simp only [ne_eq, not_true_eq_false, decide_false, Bool.false_eq_true, not_false_eq_true,
      List.dropWhile_cons_of_neg, List.takeWhile_cons_of_neg, List.append_nil]
    split
    · rename_i heq
      cases heq
    · rename_i heq
      exact absurd (List.cons.inj heq).2 hstart
    · rename_i heq
      obtain ⟨-, rfl⟩ := List.cons.inj heq
      simp

namespace Store

/-- The name of the file that holds the template of a stem. -/
def templateFile (stem : String) : String := stem ++ ("." ++ templateExtension)

theorem splitName_eq_templateExtension_iff {name stem : String} :
    FilePath.splitName name = (stem, some templateExtension) ↔
      name = templateFile stem ∧ stem ≠ "" := by
  rw [FilePath.splitName_eq_iff, templateFile]
  exact and_congr_right fun _ => and_iff_left (by decide)

end Store

/-- The directory lists a template file with the stem. -/
structure Files.HasTemplate (files : Files) (directory stem : String) : Prop where
  ne_empty : stem ≠ ""
  listed : ∃ names, files.listNames directory = .ok names ∧ Store.templateFile stem ∈ names
  isFile : files.isFile (FilePath.join directory (Store.templateFile stem)) = true

/-- The text of the template file with the stem. -/
def Files.templateText (files : Files) (directory stem : String) : Except FileError String :=
  files.readText (FilePath.join directory (Store.templateFile stem))

namespace Store

/-! ## Registering one source after the other -/

variable (s : Store)

/-- A source that is read is registered if it compiles. Any other fails. -/
theorem registerRead_cases (name : String) (source : Except FileError String) :
    (∃ text t, source = .ok text ∧ Template.compile text = .ok t ∧
      (s.registerRead name source).1 = (s.register name text).1 ∧
      (s.registerRead name source).2.result = .ok name) ∨
    (∃ e, (s.registerRead name source).2.result = .error e) ∧
      ∀ text t, source = .ok text → Template.compile text ≠ .ok t := by
  cases source with
  | error e => exact .inr ⟨⟨_, rfl⟩, fun _ _ h => by cases h⟩
  | ok text =>
      cases hcompile : Template.compile text with
      | ok t =>
          refine .inl ⟨text, t, rfl, hcompile, rfl, ?_⟩
          rw [registerRead, register, hcompile]
          rfl
      | error e =>
          refine .inr ⟨⟨.parse (some name) e, ?_⟩, ?_⟩
          · rw [registerRead, register, hcompile]
            rfl
          · rintro _ t ⟨⟩ h
            rw [hcompile] at h
            cases h

/-- Sources are registered up to the end if each is read and compiles. If not, they fail. -/
theorem registerEach_cases (sources : List (String × Except FileError String)) :
    (∃ entries : List (String × String),
      sources = entries.map (fun (name, text) => (name, .ok text)) ∧
      (∀ entry ∈ entries, ∃ t, Template.compile entry.2 = .ok t) ∧
      (s.registerEach sources).1 =
        entries.foldl (fun s (name, text) => (s.register name text).1) s ∧
      (s.registerEach sources).2.result = .ok (entries.map Prod.fst)) ∨
    (∃ e, (s.registerEach sources).2.result = .error e) ∧
      ∃ source ∈ sources, ∀ text t, source.2 = .ok text → Template.compile text ≠ .ok t := by
  induction sources generalizing s with
  | nil => exact .inl ⟨[], rfl, fun _ h => absurd h List.not_mem_nil, rfl, rfl⟩
  | cons source rest ih =>
      obtain ⟨name, read⟩ := source
      rw [registerEach]
      rcases hread : s.registerRead name read with ⟨s', ⟨result, events⟩⟩
      have hcases := s.registerRead_cases name read
      rw [hread] at hcases
      rcases hcases with ⟨text, t, rfl, hcompile, rfl, rfl⟩ | ⟨⟨e, rfl⟩, hfails⟩
      -- The others are registered on top of the first, and their names follow its name.
      · rcases ih (s.register name text).1 with
          ⟨entries, rfl, hentries, hstore, hresult⟩ | ⟨⟨e, hresult⟩, source, hmem, hfails⟩
        · refine .inl ⟨(name, text) :: entries, rfl, ?_, hstore, ?_⟩
          · exact List.forall_mem_cons.mpr ⟨⟨t, hcompile⟩, hentries⟩
          · exact congrArg (Except.map (name :: ·)) hresult
        · refine .inr ⟨⟨e, ?_⟩, source, List.mem_cons_of_mem _ hmem, hfails⟩
          exact congrArg (Except.map (name :: ·)) hresult
      · exact .inr ⟨⟨e, rfl⟩, _, List.mem_cons_self .., hfails⟩

/-! ## Registering a directory -/

/-- The stems of the template files among the entries of a directory, in the order of the files. -/
def templateStems (files : Files) (directory : String) (names : List String) : List String :=
  (templateFiles files directory names).map fun name => (FilePath.splitName name).1

section

variable {files : Files} {directory : String} {names : List String}

theorem eq_templateFile_of_mem {name : String} (h : name ∈ templateFiles files directory names) :
    name = templateFile (FilePath.splitName name).1 ∧ (FilePath.splitName name).1 ≠ "" := by
  have hfilter := (List.mem_filter.mp h).2
  rw [Bool.and_eq_true, decide_eq_true_iff] at hfilter
  exact splitName_eq_templateExtension_iff.mp (Prod.ext rfl hfilter.1)

theorem map_templateFile_templateStems :
    (templateStems files directory names).map templateFile =
      templateFiles files directory names := by
  rw [templateStems, List.map_map]
  refine (List.map_congr_left fun name hname => ?_).trans (List.map_id _)
  exact (eq_templateFile_of_mem hname).1.symm

theorem ascending_map_templateStems :
    Text.Ascending ((templateStems files directory names).map templateFile) := by
  rw [map_templateFile_templateStems]
  exact (Text.ascending_orderedSet names).sublist List.filter_sublist

variable (hlist : files.listNames directory = .ok names)

include hlist

theorem mem_templateStems {stem : String} :
    stem ∈ templateStems files directory names ↔ files.HasTemplate directory stem := by
  rw [templateStems, List.mem_map]
  constructor
  · rintro ⟨name, hname, rfl⟩
    obtain ⟨heq, hempty⟩ := eq_templateFile_of_mem hname
    obtain ⟨hmem, hfilter⟩ := List.mem_filter.mp hname
    rw [Bool.and_eq_true] at hfilter
    exact ⟨hempty, ⟨names, hlist, heq ▸ Text.mem_orderedSet.mp hmem⟩, heq ▸ hfilter.2⟩
  · rintro ⟨hempty, ⟨names', hlist', hmem⟩, hfile⟩
    obtain rfl := Except.ok.inj (hlist.symm.trans hlist')
    have hsplit := splitName_eq_templateExtension_iff.mpr ⟨rfl, hempty⟩
    refine ⟨templateFile stem, List.mem_filter.mpr ⟨Text.mem_orderedSet.mpr hmem, ?_⟩, ?_⟩
    · rw [hsplit, hfile]
      rfl
    · rw [hsplit]

theorem registerDirectory_eq (s : Store) :
    s.registerDirectory files directory =
      s.registerEach ((templateStems files directory names).map fun stem =>
        (stem, files.templateText directory stem)) := by
  rw [registerDirectory, hlist, templateStems, List.map_map]
  dsimp only
  congr 1
  refine List.map_congr_left fun name hname => ?_
  rw [Function.comp_apply, Files.templateText, ← (eq_templateFile_of_mem hname).1]

end

end Store

/-- The entries are the stems and texts of the template files of the directory, in the order of the
files. -/
structure Files.Holds (files : Files) (directory : String) (entries : List (String × String)) :
    Prop where
  mem_iff : ∀ stem text, (stem, text) ∈ entries ↔
    files.HasTemplate directory stem ∧ files.templateText directory stem = .ok text
  mem_stems_iff : ∀ stem, stem ∈ entries.map Prod.fst ↔ files.HasTemplate directory stem
  ascending : Text.Ascending ((entries.map Prod.fst).map Store.templateFile)

theorem Files.Holds.nodup {files : Files} {directory : String} {entries : List (String × String)}
    (h : files.Holds directory entries) : (entries.map Prod.fst).Nodup :=
  h.ascending.nodup.of_map Store.templateFile

namespace Store

variable {files : Files} {directory : String}

theorem holds_of_sources_eq {names : List String} (hlist : files.listNames directory = .ok names)
    {entries : List (String × String)}
    (hsources : (templateStems files directory names).map
        (fun stem => (stem, files.templateText directory stem)) =
      entries.map fun (name, text) => (name, .ok text)) :
    files.Holds directory entries := by
  have hstems : entries.map Prod.fst = templateStems files directory names := by
    have hfst := congrArg (List.map Prod.fst) hsources
    rw [List.map_map, List.map_map] at hfst
    exact hfst.symm.trans (List.map_id _)
  have hmem : ∀ stem text, (stem, text) ∈ entries ↔
      stem ∈ templateStems files directory names ∧
        files.templateText directory stem = .ok text := by
    intro stem text
    have hread : (stem, text) ∈ entries ↔ (stem, .ok text) ∈
        entries.map fun (name, text) => (name, (.ok text : Except FileError String)) := by
      simp
    rw [hread, ← hsources]
    simp
  refine ⟨fun stem text => ?_, fun stem => ?_, ?_⟩
  · rw [hmem, mem_templateStems hlist]
  · rw [hstems, mem_templateStems hlist]
  · rw [hstems]
    exact ascending_map_templateStems

/-- A directory is registered, file by file, if it can be listed and each of its template files is
read and compiles. If not, it fails. -/
theorem registerDirectory_cases (s : Store) (files : Files) (directory : String) :
    (∃ entries, files.Holds directory entries ∧
      (∀ entry ∈ entries, ∃ t, Template.compile entry.2 = .ok t) ∧
      (s.registerDirectory files directory).1 =
        entries.foldl (fun s (name, text) => (s.register name text).1) s ∧
      (s.registerDirectory files directory).2.result = .ok (entries.map Prod.fst)) ∨
    (∃ e, (s.registerDirectory files directory).2.result = .error e) ∧
      ((∃ e, files.listNames directory = .error e) ∨
        ∃ stem, files.HasTemplate directory stem ∧ ∀ text t,
          files.templateText directory stem = .ok text → Template.compile text ≠ .ok t) := by
  cases hlist : files.listNames directory with
  | error e =>
      refine .inr ⟨⟨.file e, ?_⟩, .inl ⟨e, rfl⟩⟩
      rw [registerDirectory, hlist]
      rfl
  | ok names =>
      rw [registerDirectory_eq hlist]
      rcases s.registerEach_cases _ with
        ⟨entries, hsources, hcompile, hstore, hresult⟩ | ⟨herror, source, hsource, hfails⟩
      · exact .inl ⟨entries, holds_of_sources_eq hlist hsources, hcompile, hstore, hresult⟩
      · obtain ⟨stem, hstem, rfl⟩ := List.mem_map.mp hsource
        exact .inr ⟨herror, .inr ⟨stem, (mem_templateStems hlist).mp hstem, hfails⟩⟩

/-- Of a directory whose template files are all read and compile, the names are the stems of these
files, each once, in the order of the files. They are in ascending order just if the extension
precedes, with itself after them, all the texts by which one stem continues another. -/
theorem registerDirectory_names (s : Store) (files : Files) (directory : String)
    (hlist : ∃ names, files.listNames directory = .ok names)
    (hcompile : ∀ stem, files.HasTemplate directory stem → ∃ text t,
      files.templateText directory stem = .ok text ∧ Template.compile text = .ok t) :
    ∃ stems, (s.registerDirectory files directory).2.result = .ok stems ∧ stems.Nodup ∧
      (∀ stem, stem ∈ stems ↔ files.HasTemplate directory stem) ∧
      Text.Ascending (stems.map templateFile) ∧
      (Text.Ascending stems ↔ ∀ stem more, more ≠ "" → files.HasTemplate directory stem →
        files.HasTemplate directory (stem ++ more) →
          Text.precedes (templateFile "") (templateFile more) = true) := by
  rcases s.registerDirectory_cases files directory with
    ⟨entries, hholds, -, -, hresult⟩ | ⟨-, ⟨e, herror⟩ | ⟨stem, hstem, hfails⟩⟩
  · refine ⟨_, hresult, hholds.nodup, hholds.mem_stems_iff, hholds.ascending, ?_⟩
    rw [Text.ascending_iff_of_ascending_append hholds.ascending, templateFile, String.empty_append]
    simp only [hholds.mem_stems_iff, templateFile]
  · obtain ⟨names, hnames⟩ := hlist
    rw [hnames] at herror
    cases herror
  · obtain ⟨text, t, htext, ht⟩ := hcompile stem hstem
    exact absurd ht (hfails text t htext)

/-- The stem of one file continues that of the other by a text that comes after the extension, so
the names are in order. A file of another kind is left out. -/
theorem registerDirectory_names_ascending :
    let files := FileTree.access ⟨[], [(["d", "a_b.template"], "\x7b\x7bx\x7d\x7d".toUTF8),
      (["d", "notes.txt"], "".toUTF8), (["d", "a.template"], "x".toUTF8)], []⟩
    ∃ stems, (empty.registerDirectory files "d").2.result = .ok stems ∧
      (∀ stem, stem ∈ stems ↔ stem = "a" ∨ stem = "a_b") ∧ Text.Ascending stems := by
  intro files
  have hlist : files.listNames "d" = .ok ["a_b.template", "notes.txt", "a.template"] := by
    decide +kernel
  have hmem : ∀ stem, files.HasTemplate "d" stem ↔ stem = "a" ∨ stem = "a_b" := by
    intro stem
    rw [← mem_templateStems hlist, show templateStems files "d" _ = ["a", "a_b"] by decide +kernel]
    simp
  obtain ⟨stems, hresult, -, hstems, -, hascending⟩ := registerDirectory_names empty files "d"
    ⟨_, hlist⟩ (by
      intro stem hstem
      rcases (hmem stem).mp hstem with rfl | rfl
      · exact ⟨"x", ⟨_, [.literal "x" ⟨0, 1⟩]⟩, by decide +kernel, by cbv⟩
      · exact ⟨"\x7b\x7bx\x7d\x7d", ⟨_, [.interpolation "x" ⟨0, 5⟩]⟩, by decide +kernel, by cbv⟩)
  refine ⟨stems, hresult, fun stem => (hstems stem).trans (hmem stem), hascending.mpr ?_⟩
  intro stem more hmore hstem hcontinued
  rw [hmem] at hstem hcontinued
  rcases hstem with rfl | rfl
  · rcases hcontinued with h | h
    · exact absurd (by simpa using h) hmore
    · obtain rfl : more = "_b" := (String.append_right_inj "a").mp h
      decide
  · rcases hcontinued with h | h
    · have hlist := congrArg String.toList h
      simp at hlist
    · exact absurd (by simpa using h) hmore

/-- The hyphen comes before the dot, so the stem that continues the other comes back first. -/
theorem registerDirectory_unsorted :
    let files := FileTree.access ⟨[], [(["d", "a.template"], "x".toUTF8),
      (["d", "a-b.template"], "y".toUTF8)], []⟩
    (∀ stem, files.HasTemplate "d" stem → ∃ text t,
      files.templateText "d" stem = .ok text ∧ Template.compile text = .ok t) ∧
    (builtin.registerDirectory files "d").2.result = .ok ["a-b", "a"] ∧
      ¬Text.Ascending ["a-b", "a"] := by
  intro files
  have hlist : files.listNames "d" = .ok ["a.template", "a-b.template"] := by decide +kernel
  have hstems : templateStems files "d" ["a.template", "a-b.template"] = ["a-b", "a"] := by
    decide +kernel
  refine ⟨?_, by decide +kernel, by simp [Text.Ascending]; decide⟩
  intro stem hstem
  rw [← mem_templateStems hlist, hstems, List.mem_cons, List.mem_singleton] at hstem
  rcases hstem with rfl | rfl
  · exact ⟨"y", ⟨_, [.literal "y" ⟨0, 1⟩]⟩, by decide +kernel, by cbv⟩
  · exact ⟨"x", ⟨_, [.literal "x" ⟨0, 1⟩]⟩, by decide +kernel, by cbv⟩

end Store

end Stencil
