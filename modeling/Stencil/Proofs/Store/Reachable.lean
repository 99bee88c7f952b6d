import Stencil.Engine
import Stencil.Proofs.Template.Spelling

/-!
# Stores that come about

A store starts empty or with the built-in templates and then changes by registrations, from a text,
a file or a directory, and by removals. All of these come down to `Store.register` and
`Store.unregister`, so what these two keep holds of every store that comes about
(`Store.Reachable.invariant`). One such property is that what is stored is compiled
(`Store.Reachable.compiled`).
-/

namespace Stencil.Store

inductive Reachable : Store → Prop
  | empty : Reachable .empty
  | builtin : Reachable .builtin
  | register {s : Store} (h : Reachable s) (name source : String) :
      Reachable (s.register name source).1
  | unregister {s : Store} (h : Reachable s) (name : String) :
      Reachable (s.unregister (ε := TemplateError) name).1
  | registerFile {s : Store} (h : Reachable s) (files : Files) (path : String) :
      Reachable (s.registerFile files path).1
  | registerDirectory {s : Store} (h : Reachable s) (files : Files) (directory : String) :
      Reachable (s.registerDirectory files directory).1

section

variable {P : Store → Prop} (hregister : ∀ s name source, P s → P (s.register name source).1)

include hregister

theorem registerRead_induction {s : Store} (h : P s) (name : String)
    (source : Except FileError String) : P (s.registerRead name source).1 := by
  cases source with
  | error e => exact h
  | ok source => exact hregister s name source h

theorem registerEach_induction (sources : List (String × Except FileError String)) :
    ∀ {s : Store}, P s → P (s.registerEach sources).1 := by
  induction sources with
  | nil => exact fun h => h
  | cons entry rest ih =>
      obtain ⟨name, source⟩ := entry
      intro s h
      have hread := registerRead_induction hregister h name source
      rw [registerEach]
      cases hs : s.registerRead name source with
      | mk s' outcome =>
          rw [hs] at hread
          rcases outcome with ⟨_ | _, events⟩
          · exact hread
          · exact ih hread

theorem registerFile_induction {s : Store} (h : P s) (files : Files) (path : String) :
    P (s.registerFile files path).1 := by
  rw [registerFile]
  split
  · exact h
  · exact registerRead_induction hregister h _ _

theorem registerDirectory_induction {s : Store} (h : P s) (files : Files) (directory : String) :
    P (s.registerDirectory files directory).1 := by
  rw [registerDirectory]
  split
  · exact h
  · exact registerEach_induction hregister _ h

theorem foldl_register_induction (entries : List (String × String)) :
    ∀ {s : Store}, P s →
      P (entries.foldl (fun s (name, source) => (s.register name source).1) s) := by
  induction entries with
  | nil => exact fun h => h
  | cons entry rest ih => exact fun h => ih (hregister _ entry.1 entry.2 h)

/-- What the empty store has and registering and removing one template keep, every store has. -/
theorem Reachable.invariant (hempty : P .empty)
    (hunregister : ∀ s name, P s → P (s.unregister (ε := TemplateError) name).1) {s : Store}
    (h : Reachable s) : P s := by
  induction h with
  | empty => exact hempty
  | builtin => exact foldl_register_induction hregister Builtin.all hempty
  | register _ name source ih => exact hregister _ name source ih
  | unregister _ name ih => exact hunregister _ name ih
  | registerFile _ files path ih => exact registerFile_induction hregister ih files path
  | registerDirectory _ files directory ih =>
      exact registerDirectory_induction hregister ih files directory

end

/-- Every template of the store is what its source compiles to. -/
def Compiled (s : Store) : Prop :=
  ∀ name t, s.get? name = some t → Template.compile t.source = .ok t

theorem Compiled.register {s : Store} (h : s.Compiled) (name source : String) :
    (s.register name source).1.Compiled := by
  rw [Store.register]
  cases hcompile : Template.compile source with
  | error e => exact h
  | ok template =>
      intro name' t hget
      rw [get?, Bindings.get?_insert] at hget
      split at hget
      · obtain rfl := Option.some.inj hget
        rwa [(Template.compile_eq_ok_iff.mp hcompile).1]
      · exact h name' t hget

theorem Compiled.unregister {s : Store} (h : s.Compiled) (name : String) :
    (s.unregister (ε := TemplateError) name).1.Compiled := by
  rw [Store.unregister]
  split
  · intro name' t hget
    rw [get?, Bindings.get?_erase] at hget
    split at hget
    · cases hget
    · exact h name' t hget
  · exact h

theorem Reachable.compiled {s : Store} (h : Reachable s) : s.Compiled :=
  h.invariant (fun _ name source h => h.register name source) (fun _ _ hget => by cases hget)
    fun _ name h => h.unregister name

end Stencil.Store
