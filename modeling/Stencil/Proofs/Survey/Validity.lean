import Stencil.Command.Run
import Stencil.Proofs.Store.Reachable
import Stencil.Proofs.Survey.Directive

/-!
# Validation of what compiles

A survey counts markers and looks for stray opening braces; it knows nothing of order and nesting.
What compiles still passes it: the blocks of a forest are each opened once and closed once, so the
counts of every kind are equal, and outside the markers of a well-cut text no brace is doubled. Two
verdicts are exact for that reason, the one on a file, where a parse follows the survey, and the one
on a stored template, which has been compiled before.
-/

namespace Stencil

/-- What a survey reports of `count` open blocks of one kind. -/
def Survey.unclosed? (kind : BlockKind) (count : Nat) : Option ValidationError :=
  if count = 0 then none else some (.unclosed kind count)

section

variable {source : String} {b : Builder}

theorem Survey.balance_eq (h : Holds b (Segment.ofSource source)) (kind : BlockKind) :
    balance source kind = unclosed? kind ((b.enclosing.map OpenBlock.kind).count kind) := by
  rw [balance, unclosed?, openerCount_eq h kind]
  generalize closerCount kind source = closed
  generalize (b.enclosing.map OpenBlock.kind).count kind = count
  by_cases hzero : count = 0
  · subst hzero
    rw [Nat.add_zero, if_neg (Nat.lt_irrefl _), if_neg (Nat.lt_irrefl _), if_pos rfl]
  · rw [if_pos (by omega), if_neg hzero, Nat.add_sub_cancel_left]

/-- Of a source that is read to its end a survey reports the blocks that are open there. -/
theorem Survey.errors_eq (h : Holds b (Segment.ofSource source)) :
    errors source = BlockKind.all.filterMap fun kind =>
      unclosed? kind ((b.enclosing.map OpenBlock.kind).count kind) := by
  rw [errors, unterminatedAt?_eq_none h, Option.map_none, Option.toList_none, List.append_nil]
  exact congrArg (List.filterMap · _) (funext fun kind => balance_eq h kind)

end

variable {source : String} {t : Template}

theorem Validation.ofSource_eq_of_compile (h : Template.compile source = .ok t) :
    Validation.ofSource source = ⟨[]⟩ := by
  rw [Validation.ofSource, Survey.errors_eq (Template.spells_of_compile h).1.holds]
  rfl

/-- A survey that passes is followed by a parse, so its verdict is the parse's. -/
theorem Command.isValid_validateFully_iff :
    (Command.validateFully source).isValid = true ↔ ∃ t, Template.compile source = .ok t := by
  rw [Command.validateFully]
  cases hcompile : Template.compile source with
  | ok t => simp [Validation.ofSource_eq_of_compile hcompile, Validation.isValid]
  | error e =>
      cases hsurvey : (Validation.ofSource source).isValid
      · simp [hsurvey]
      · simp [Validation.isValid]

/-- To validate a file is to compile its text. -/
theorem Command.runValidate_file_iff {files : Files} {target : String}
    (hfile : files.isFile target = true) (hread : files.readText target = .ok source)
    (templates : Option String) :
    (Command.runValidate files target templates).result = .ok (target ++ ": valid\n") ↔
      ∃ t, Template.compile source = .ok t := by
  rw [← isValid_validateFully_iff, Command.runValidate, if_pos hfile, hread]
  change Command.verdict target (Command.validateFully source) = _ ↔ _
  rw [Command.verdict]
  cases (Command.validateFully source).isValid <;> simp

theorem Engine.validate_eq_ok {e : Engine} (h : e.store.Compiled) {name : String}
    (hname : e.store.contains name = true) : e.validate name = .ok ⟨[]⟩ := by
  obtain ⟨t, hget⟩ := Option.isSome_iff_exists.mp hname
  have hrequire : e.store.require name = .ok t := by
    rw [Store.require, show e.store.get? name = some t from hget]
  rw [Engine.validate, Engine.source, hrequire]
  exact congrArg Except.ok (Validation.ofSource_eq_of_compile (h name t hget))

/-- A source that compiles has no fault to a survey; the verdict on a file says whether it compiles,
and so does the command that validates one; and every template of a store that comes about is
valid. -/
theorem Validation.agrees_with_compile :
    (∀ source t, Template.compile source = .ok t →
      (Validation.ofSource source).isValid = true ∧ (Validation.ofSource source).errors = []) ∧
    (∀ source, (Command.validateFully source).isValid = true ↔
      ∃ t, Template.compile source = .ok t) ∧
    (∀ (files : Files) (target source : String) (templates : Option String),
      files.isFile target = true → files.readText target = .ok source →
      ((Command.runValidate files target templates).result = .ok (target ++ ": valid\n") ↔
        ∃ t, Template.compile source = .ok t)) ∧
    ∀ e : Engine, e.store.Reachable → ∀ name, e.store.contains name = true →
      ∃ v, e.validate name = .ok v ∧ v.isValid = true ∧ v.errors = [] := by
  refine ⟨?_, ?_, ?_, ?_⟩
  · intro source t h
    rw [Validation.ofSource_eq_of_compile h]
    exact ⟨rfl, rfl⟩
  · intro source
    exact Command.isValid_validateFully_iff
  · intro files target source templates hfile hread
    exact Command.runValidate_file_iff hfile hread templates
  · intro e h name hname
    exact ⟨⟨[]⟩, e.validate_eq_ok h.compiled hname, rfl, rfl⟩

/-- A source with single braces beside its markers and a line break in an opener, on its own, as a
file and as the one template left in a store. -/
theorem Validation.agrees_with_compile_stray :
    ∃ (t : Template) (files : Files) (e : Engine),
      Template.compile ("\x7d\x7b \x7b\x7b#if\n\u2003x\x7d\x7d" ++
        "\x7d\x7d\x7b/if\x7d\x7b\x7b/if\x7d\x7d\x7b") = .ok t ∧
      (Validation.ofSource t.source).errors = [] ∧
      (Command.validateFully t.source).isValid = true ∧
      files.isFile "row.txt" = true ∧ files.readText "row.txt" = .ok t.source ∧
      (Command.runValidate files "row.txt" none).result = .ok "row.txt: valid\n" ∧
      e.store.Reachable ∧ e.store.names = ["row"] ∧ e.source "row" = .ok t.source ∧
      ∃ v, e.validate "row" = .ok v ∧ v.isValid = true ∧ v.errors = [] := by
  let source := "\x7d\x7b \x7b\x7b#if\n\u2003x\x7d\x7d" ++
    "\x7d\x7d\x7b/if\x7d\x7b\x7b/if\x7d\x7d\x7b"
  let t : Template := ⟨source, [.literal "\x7d\x7b " ⟨0, 3⟩, .block .conditional ⟨"x", ⟨12, 13⟩⟩
    [.literal "\x7d\x7d\x7b/if\x7d" ⟨15, 22⟩] ⟨3, 29⟩, .literal "\x7b" ⟨29, 30⟩]⟩
  have hcompile : Template.compile source = .ok t := by cbv
  have hempty : Template.compile "" = .ok ⟨"", []⟩ := by cbv
  have hstore : (((Store.empty.register "row" source).1.register "spare" "").1.unregister
      (ε := TemplateError) "spare").1 = ⟨[("row", t)]⟩ := by
    rw [Store.register, hempty, Store.register, hcompile]
    rfl
  have hreachable : Store.Reachable ⟨[("row", t)]⟩ :=
    hstore ▸ .unregister (.register (.register .empty "row" source) "spare" "") "spare"
  let files : Files := fun _ => .ok (.file (.ok source.toUTF8))
  have hread : files.readText "row.txt" = .ok source := by decide +kernel
  obtain ⟨hsurvey, hverdict, hcommand, hstored⟩ := agrees_with_compile
  exact ⟨t, files, ⟨⟨[("row", t)]⟩, {}⟩, hcompile, (hsurvey source t hcompile).2,
    (hverdict source).mpr ⟨t, hcompile⟩, rfl, hread,
    (hcommand files "row.txt" source none rfl hread).mpr ⟨t, hcompile⟩,
    hreachable, rfl, rfl, hstored _ hreachable "row" rfl⟩

end Stencil
