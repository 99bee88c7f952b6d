import Stencil.Proofs.Store.Directory
import Stencil.Proofs.Store.Registration

/-!
# What loading files leaves behind

`Files.Loads` says what comes of one file under a name: a template, or the reason why there is none.
A file that fails leaves the store as it was, also when its name is taken. So a directory is loaded
file by file up to the first that fails, and the store is the one from before with exactly the files
before that one in it (`Store.registerDirectory_loads`).
-/

namespace Stencil

/-! ## One file -/

namespace Files

/-- What comes of loading the file at a path under a name. -/
inductive Loads (files : Files) (path name : String) : Except TemplateError Template → Prop
  | template {text : String} {t : Template}
      (hread : files path = .ok (.file (.ok text.toByteArray)))
      (hcompile : Template.compile text = .ok t) : files.Loads path name (.ok t)
  | malformed {text : String} {e : ParseError}
      (hread : files path = .ok (.file (.ok text.toByteArray)))
      (hcompile : Template.compile text = .error e) :
      files.Loads path name (.error (.parse (some name) e))
  | notText {content : ByteArray} (hread : files path = .ok (.file (.ok content)))
      (hcontent : ¬content.IsValidUTF8) : files.Loads path name (.error (.file .invalidData))
  | unreadable {e : FileError} (hread : files path = .ok (.file (.error e))) :
      files.Loads path name (.error (.file e))
  | directory {names : List String} (hread : files path = .ok (.directory names)) :
      files.Loads path name (.error (.file .isADirectory))
  | missing {e : FileError} (hread : files path = .error e) :
      files.Loads path name (.error (.file e))

variable {files : Files} {path : String}

theorem readText_of_text {text : String}
    (hread : files path = .ok (.file (.ok text.toByteArray))) : files.readText path = .ok text := by
  unfold readText String.fromUTF8?
  rw [hread]
  dsimp only
  rw [dif_pos text.isValidUTF8]
  rfl

theorem readText_of_not_isValidUTF8 {content : ByteArray}
    (hread : files path = .ok (.file (.ok content))) (hcontent : ¬content.IsValidUTF8) :
    files.readText path = .error .invalidData := by
  unfold readText String.fromUTF8?
  rw [hread]
  dsimp only
  rw [dif_neg hcontent]

/-- A file comes to one thing or another. -/
theorem exists_loads (files : Files) (path name : String) :
    ∃ result, files.Loads path name result := by
  rcases hread : files path with e | ⟨content | content⟩ | names
  · exact ⟨_, .missing hread⟩
  · exact ⟨_, .unreadable hread⟩
  · by_cases hcontent : content.IsValidUTF8
    · cases hcompile : Template.compile (String.ofByteArray content hcontent) with
      | ok t => exact ⟨_, .template hread hcompile⟩
      | error e => exact ⟨_, .malformed hread hcompile⟩
    · exact ⟨_, .notText hread hcontent⟩
  · exact ⟨_, .directory hread⟩

variable {name : String}

/-- The source of what is loaded is the text of the file. -/
theorem Loads.readText_eq {t : Template} (h : files.Loads path name (.ok t)) :
    files.readText path = .ok t.source := by
  obtain ⟨hread, hcompile⟩ := h
  rw [readText_of_text hread, (Template.compile_eq_ok_iff.mp hcompile).1]

theorem Loads.registerRead_of_ok {t : Template} (h : files.Loads path name (.ok t)) (s : Store) :
    s.registerRead name (files.readText path) =
      (⟨s.templates.insert name t⟩, ⟨.ok name, [.registered name (s.contains name)]⟩) := by
  obtain ⟨hread, hcompile⟩ := h
  rw [readText_of_text hread, Store.registerRead, Store.register, hcompile]
  rfl

/-- Whatever the reason, a file that fails leaves the store as it was. -/
theorem Loads.registerRead_of_error {e : TemplateError} (h : files.Loads path name (.error e))
    (s : Store) : s.registerRead name (files.readText path) = (s, .ofExcept (.error e)) := by
  cases h with
  | malformed hread hcompile =>
      rw [readText_of_text hread, Store.registerRead, Store.register, hcompile]
      rfl
  | notText hread hcontent =>
      rw [readText_of_not_isValidUTF8 hread hcontent]
      rfl
  | unreadable hread =>
      rw [readText, hread]
      rfl
  | directory hread =>
      rw [readText, hread]
      rfl
  | missing hread =>
      rw [readText, hread]
      rfl

end Files

/-! ## The template files of a directory -/

/-- The stems of the template files of a directory, in the ascending order of the files. -/
structure Files.ListsTemplates (files : Files) (directory : String) (stems : List String) :
    Prop where
  mem_iff : ∀ stem, stem ∈ stems ↔ files.HasTemplate directory stem
  ascending : Text.Ascending (stems.map Store.templateFile)

/-- There is one such list. -/
theorem Files.ListsTemplates.eq_templateStems {files : Files} {directory : String}
    {names stems : List String} (h : files.ListsTemplates directory stems)
    (hlist : files.listNames directory = .ok names) :
    stems = Store.templateStems files directory names := by
  have hinjective : Function.Injective Store.templateFile := fun _ _ heq =>
    (String.append_left_inj _).mp heq
  refine hinjective.list_map (h.ascending.eq_of_mem_iff Store.ascending_map_templateStems ?_)
  intro file
  simp only [List.mem_map, h.mem_iff, Store.mem_templateStems hlist]

/-- What comes of loading the template file of a stem. -/
def Files.LoadsTemplate (files : Files) (directory stem : String) :
    Except TemplateError Template → Prop :=
  files.Loads (FilePath.join directory (Store.templateFile stem)) stem

/-- The store `s'` is `s` with the template files of the stems in it, each in place of what its stem
stood for. -/
structure Files.LoadedInto (files : Files) (directory : String) (stems : List String)
    (s s' : Store) : Prop where
  loaded : ∀ stem ∈ stems, ∃ t, files.LoadsTemplate directory stem (.ok t) ∧
    files.templateText directory stem = .ok t.source ∧ s'.get? stem = some t
  others : ∀ name, name ∉ stems → s'.get? name = s.get? name
  nodup : s.templates.names.Nodup → s'.templates.names.Nodup

section

variable {files : Files} {directory : String} {s s' : Store}

theorem Files.LoadedInto.nil : files.LoadedInto directory [] s s where
  loaded _ h := absurd h List.not_mem_nil
  others _ _ := rfl
  nodup h := h

theorem Files.LoadedInto.cons {stem : String} {stems : List String} {t : Template}
    (hstem : files.LoadsTemplate directory stem (.ok t))
    (h : files.LoadedInto directory stems ⟨s.templates.insert stem t⟩ s') :
    files.LoadedInto directory (stem :: stems) s s' where
  loaded stem' hstem' := by
    by_cases hmem : stem' ∈ stems
    · exact h.loaded stem' hmem
    · obtain rfl := (List.mem_cons.mp hstem').resolve_right hmem
      refine ⟨t, hstem, hstem.readText_eq, ?_⟩
      rw [h.others stem' hmem, Store.get?, Bindings.get?_insert, if_pos rfl]
  others name hname := by
    obtain ⟨hne, hmem⟩ := not_or.mp (mt List.mem_cons.mpr hname)
    rw [h.others name hmem, Store.get?, Bindings.get?_insert, if_neg hne, Store.get?]
  nodup hnodup := h.nodup (Bindings.nodup_names_insert hnodup stem t)

theorem Files.LoadedInto.source?_of_mem {stems : List String} {stem text : String}
    (h : files.LoadedInto directory stems s s') (hstem : stem ∈ stems)
    (htext : files.templateText directory stem = .ok text) : s'.source? stem = some text := by
  obtain ⟨t, -, hsource, hget⟩ := h.loaded stem hstem
  obtain rfl := Except.ok.inj (htext.symm.trans hsource)
  rw [Store.source?, hget, Option.map_some]

theorem Files.LoadedInto.source?_of_not_mem {stems : List String} {name : String}
    (h : files.LoadedInto directory stems s s') (hname : name ∉ stems) :
    s'.source? name = s.source? name := by
  rw [Store.source?, h.others name hname, Store.source?]

namespace Store

/-- The template files of the stems, as they are registered. -/
def templateSources (files : Files) (directory : String) (stems : List String) :
    List (String × Except FileError String) :=
  stems.map fun stem => (stem, files.templateText directory stem)

theorem templateSources_cons (stem : String) (stems : List String) :
    templateSources files directory (stem :: stems) =
      (stem, files.templateText directory stem) :: templateSources files directory stems := rfl

/-- Files that load are in the store when the rest of the files is reached. -/
theorem registerEach_append {stems : List String}
    (h : ∀ stem ∈ stems, ∃ t, files.LoadsTemplate directory stem (.ok t)) (rest : List String)
    (s : Store) :
    ∃ s', files.LoadedInto directory stems s s' ∧
      (s.registerEach (templateSources files directory (stems ++ rest))).1 =
        (s'.registerEach (templateSources files directory rest)).1 ∧
      (s.registerEach (templateSources files directory (stems ++ rest))).2.result =
        (s'.registerEach (templateSources files directory rest)).2.result.map (stems ++ ·) := by
  induction stems generalizing s with
  | nil =>
      refine ⟨s, .nil, rfl, ?_⟩
      exact (congrFun Except.map_id _).symm
  | cons stem stems ih =>
      obtain ⟨⟨t, ht⟩, hstems⟩ := List.forall_mem_cons.mp h
      obtain ⟨s', hloaded, hstore, hresult⟩ := ih hstems ⟨s.templates.insert stem t⟩
      have hread : s.registerRead stem (files.templateText directory stem) = _ :=
        ht.registerRead_of_ok s
      refine ⟨s', hloaded.cons ht, ?_, ?_⟩
      · rw [List.cons_append, templateSources_cons, registerEach, hread, ← hstore]
      · rw [List.cons_append, templateSources_cons, registerEach, hread]
        dsimp only
        rw [hresult]
        cases (s'.registerEach (templateSources files directory rest)).2.result with
        | ok names => rfl
        | error e => rfl

/-- A file that fails ends the registration: the store is left as its turn found it. -/
theorem registerEach_of_error {stem : String} {e : TemplateError}
    (h : files.LoadsTemplate directory stem (.error e)) (after : List String) (s : Store) :
    s.registerEach (templateSources files directory (stem :: after)) =
      (s, .ofExcept (.error e)) := by
  have hread : s.registerRead stem (files.templateText directory stem) = _ :=
    h.registerRead_of_error s
  rw [templateSources_cons, registerEach, hread]
  rfl

end Store

end

/-! ## Files that are refused -/

/-- Why the file at a path is not registered: the path names no file, or the file fails. -/
inductive Files.Refuses (files : Files) (path : String) : TemplateError → Prop
  | unnamed (hstem : FilePath.stem? path = none) : files.Refuses path (.file (.notATemplate path))
  | failing {name : String} {e : TemplateError} (hstem : FilePath.stem? path = some name)
      (hloads : files.Loads path name (.error e)) : files.Refuses path e

namespace Store

variable {files : Files} {path : String} {e : TemplateError}

theorem registerFile_of_refuses (h : files.Refuses path e) (s : Store) :
    s.registerFile files path = (s, .ofExcept (.error e)) := by
  unfold registerFile
  cases h with
  | unnamed hstem => rw [hstem]
  | failing hstem hloads =>
      rw [hstem]
      exact hloads.registerRead_of_error s

theorem refuses_of_registerFile {s : Store}
    (h : (s.registerFile files path).2.result = .error e) : files.Refuses path e := by
  unfold registerFile at h
  cases hstem : FilePath.stem? path with
  | none =>
      rw [hstem] at h
      cases h
      exact .unnamed hstem
  | some name =>
      rw [hstem] at h
      obtain ⟨result, hloads⟩ := files.exists_loads path name
      cases result with
      | ok t =>
          dsimp only at h
          rw [hloads.registerRead_of_ok] at h
          cases h
      | error e' =>
          dsimp only at h
          rw [hloads.registerRead_of_error] at h
          cases h
          exact .failing hstem hloads

/-! ## Directories -/

section

variable {directory : String} {names : List String}
  (hlist : files.listNames directory = .ok names)

include hlist

theorem registerDirectory_of_loads
    (h : ∀ stem ∈ templateStems files directory names,
      ∃ t, files.LoadsTemplate directory stem (.ok t)) (s : Store) :
    (s.registerDirectory files directory).2.result = .ok (templateStems files directory names) ∧
      files.LoadedInto directory (templateStems files directory names) s
        (s.registerDirectory files directory).1 := by
  obtain ⟨s', hloaded, hstore, hresult⟩ := registerEach_append h [] s
  rw [List.append_nil] at hstore hresult
  rw [registerDirectory_eq hlist, ← templateSources, hstore, hresult]
  exact ⟨congrArg _ (List.append_nil _), hloaded⟩

theorem registerDirectory_of_error {before after : List String} {stem : String}
    (hstems : templateStems files directory names = before ++ stem :: after)
    (hbefore : ∀ earlier ∈ before, ∃ t, files.LoadsTemplate directory earlier (.ok t))
    (hfails : files.LoadsTemplate directory stem (.error e)) (s : Store) :
    (s.registerDirectory files directory).2.result = .error e ∧
      files.LoadedInto directory before s (s.registerDirectory files directory).1 := by
  obtain ⟨s', hloaded, hstore, hresult⟩ := registerEach_append hbefore (stem :: after) s
  rw [registerEach_of_error hfails] at hstore hresult
  rw [registerDirectory_eq hlist, ← templateSources, hstems, hstore, hresult]
  exact ⟨rfl, hloaded⟩

end

/-- The template files of a directory are loaded in the order of their names. If each of them loads,
the stems come back and all of them are in the store. If not, the error of the first that fails
comes back and those before it are in the store. A directory that cannot be listed leaves the store
as it was, and so does a single file that is refused, for whatever reason. -/
theorem registerDirectory_loads (s : Store) (files : Files) (directory : String) :
    (∀ names, files.listNames directory = .ok names → ∃ stems,
      files.ListsTemplates directory stems ∧
      (∀ stem ∈ stems, ∃ result, files.LoadsTemplate directory stem result) ∧
      ((∀ stem ∈ stems, ∃ t, files.LoadsTemplate directory stem (.ok t)) →
        (s.registerDirectory files directory).2.result = .ok stems ∧
          files.LoadedInto directory stems s (s.registerDirectory files directory).1) ∧
      ∀ before stem after e, stems = before ++ stem :: after →
        (∀ earlier ∈ before, ∃ t, files.LoadsTemplate directory earlier (.ok t)) →
        files.LoadsTemplate directory stem (.error e) →
          (s.registerDirectory files directory).2.result = .error e ∧
            files.LoadedInto directory before s (s.registerDirectory files directory).1) ∧
    (∀ e, files.listNames directory = .error e →
      s.registerDirectory files directory = (s, .ofExcept (.error (.file e)))) ∧
    (∀ path e, (s.registerFile files path).2.result = .error e ↔ files.Refuses path e) ∧
    (∀ path e, (s.registerFile files path).2.result = .error e →
      (s.registerFile files path).1 = s) ∧
    ∀ stem e, (TemplateError.parse (some stem) e).message =
      "Parse error: " ++ (stem ++ ": " ++ e.message) := by
  refine ⟨fun names hlist => ?_, fun e hlist => ?_, fun path e => ?_, fun path e h => ?_, ?_⟩
  · refine ⟨templateStems files directory names, ?_, ?_, ?_, ?_⟩
    · exact ⟨fun stem => mem_templateStems hlist, ascending_map_templateStems⟩
    · exact fun stem _ => files.exists_loads _ stem
    · intro hall
      exact registerDirectory_of_loads hlist hall s
    · intro before stem after e hstems hbefore hfails
      exact registerDirectory_of_error hlist hstems hbefore hfails s
  · rw [registerDirectory, hlist]
  · exact ⟨refuses_of_registerFile, fun h => congrArg (·.2.result) (registerFile_of_refuses h s)⟩
  · exact congrArg Prod.fst (registerFile_of_refuses (refuses_of_registerFile h) s)
  · intro stem e
    rfl

/-- Of two directories, one holds a file that is not text between two others. The first of these
takes the place of a built-in template, and the last is not reached. The other directory holds one
template file and a file of another kind, and it loads. -/
theorem registerDirectory_loads_up_to_failure :
    let files := FileTree.access ⟨[], [(["d", "manifest.template"], "x".toByteArray),
      (["d", "n.template"], ⟨#[0xff]⟩), (["d", "o.template"], "y".toByteArray),
      (["e", "a.template"], "z".toByteArray), (["e", "a.txt"], "".toByteArray)], []⟩
    let d := builtin.registerDirectory files "d"
    let e := d.1.registerDirectory files "e"
    d.2.result = .error (.file .invalidData) ∧ d.1.source? "manifest" = some "x" ∧
      d.1.source? "n" = none ∧ d.1.source? "o" = none ∧ e.2.result = .ok ["a"] ∧
      e.1.source? "a" = some "z" ∧ e.1.source? "manifest" = some "x" ∧
      (e.1.registerFile files "d/n.template").1 = e.1 := by
  intro files d e
  have hlist : files.listNames "d" = .ok ["manifest.template", "n.template", "o.template"] := by
    decide +kernel
  have hlist' : files.listNames "e" = .ok ["a.template", "a.txt"] := by decide +kernel
  have hx : files.LoadsTemplate "d" "manifest" (.ok ⟨"x", [.literal "x" ⟨0, 1⟩]⟩) :=
    .template (by rfl) (by cbv)
  have hcontent : files (FilePath.join "d" (templateFile "n")) =
      .ok (.file (.ok ⟨#[0xff]⟩)) := by
    rfl
  have hn : files.LoadsTemplate "d" "n" (.error (.file .invalidData)) :=
    .notText hcontent (by decide)
  have hz : files.LoadsTemplate "e" "a" (.ok ⟨"z", [.literal "z" ⟨0, 1⟩]⟩) :=
    .template (by rfl) (by cbv)
  -- The first directory, up to its second file.
  obtain ⟨hlisted, -⟩ := registerDirectory_loads builtin files "d"
  obtain ⟨stems, hstems, -, -, hfirst⟩ := hlisted _ hlist
  obtain rfl : stems = ["manifest", "n", "o"] :=
    (hstems.eq_templateStems hlist).trans (by decide +kernel)
  obtain ⟨hresult, hloaded⟩ := hfirst ["manifest"] "n" ["o"] _ rfl
    (List.forall_mem_singleton.mpr ⟨_, hx⟩) hn
  have hmanifest : d.1.source? "manifest" = some "x" :=
    hloaded.source?_of_mem (by simp) hx.readText_eq
  -- The other directory, and then the file that is not text once more.
  obtain ⟨hlisted', -⟩ := registerDirectory_loads d.1 files "e"
  obtain ⟨stems, hstems, -, hall, -⟩ := hlisted' _ hlist'
  obtain rfl : stems = ["a"] := (hstems.eq_templateStems hlist').trans (by decide +kernel)
  obtain ⟨hresult', hloaded'⟩ := hall (List.forall_mem_singleton.mpr ⟨_, hz⟩)
  obtain ⟨-, -, hiff, hrefused, -⟩ := registerDirectory_loads e.1 files "d"
  refine ⟨hresult, hmanifest, ?_, ?_, hresult', ?_, ?_, ?_⟩
  · exact (hloaded.source?_of_not_mem (by simp)).trans (tracks_builtin.source "n")
  · exact (hloaded.source?_of_not_mem (by simp)).trans (tracks_builtin.source "o")
  · exact hloaded'.source?_of_mem (by simp) hz.readText_eq
  · exact (hloaded'.source?_of_not_mem (by simp)).trans hmanifest
  · refine hrefused "d/n.template" (.file .invalidData) ((hiff _ _).mpr ?_)
    exact .failing (by rfl) hn

end Store

end Stencil
