import Stencil.Proofs.Render.Depth
import Stencil.Proofs.Template.Enclosing

/-!
# Conditionals and negations

A conditional and a negation about one path are exact complements: whatever the path leads to, one
of the two shows its body and the other nothing (`Node.scriptAll_complement`). The path itself is
only looked up. That it leads nowhere is no fault, in a strict render neither, and the body that is
shown is rendered in the same scope, one level further down (`Template.render_complement`).
-/

namespace Stencil

/-! ## What is taken for false -/

inductive Value.Falsy : Value → Prop
  | null : Falsy .null
  | false : Falsy (.bool false)
  | zero {x : Binary64} (h : x.isZero = true) : Falsy (.number x)
  | notANumber {x : Binary64} (h : x.isNaN = true) : Falsy (.number x)
  | emptyString : Falsy (.string "")
  | emptyList : Falsy (.list [])
  | emptyMap : Falsy (.map [])

theorem Value.isTruthy_eq_false_iff {v : Value} : v.isTruthy = false ↔ v.Falsy := by
  constructor
  · intro h
    cases v with
    | null => exact .null
    | bool value =>
        obtain rfl : value = Bool.false := h
        exact .false
    | number value =>
        rw [isTruthy, Bool.and_eq_false_iff, Bool.not_eq_false', Bool.not_eq_false'] at h
        exact h.elim .zero .notANumber
    | string value =>
        obtain rfl : value = "" := by simpa [isTruthy] using h
        exact .emptyString
    | list items =>
        obtain rfl : items = [] := by simpa [isTruthy] using h
        exact .emptyList
    | map fields =>
        obtain rfl : fields = [] := by simpa [isTruthy] using h
        exact .emptyMap
  · rintro (_ | _ | h | h | _ | _ | _)
    · rfl
    · rfl
    · simp [isTruthy, h]
    · simp [isTruthy, h]
    · rfl
    · rfl
    · rfl

/-- The path leads to a value that is not taken for false. -/
def Scope.Affirms (scope : Scope) (path : String) : Prop :=
  ∃ value, scope.resolve? path = some value ∧ ¬value.Falsy

theorem Scope.affirms_iff {scope : Scope} {path : String} :
    scope.Affirms path ↔ ((scope.resolve? path).map Value.isTruthy).getD false = true := by
  rw [Affirms]
  cases scope.resolve? path with
  | none => simp
  | some value => simp [← Value.isTruthy_eq_false_iff]

/-! ## One of two -/

/-- Of two complementary blocks one does what its body does, and the other nothing. -/
theorem Node.scriptAll_complement (path : String) (place place' : Span) (a b : List Node)
    (span span' : Span) (room : Nat) (scope : Scope) :
    let blocks :=
      [.block .conditional ⟨path, place⟩ a span, .block .negation ⟨path, place'⟩ b span']
    (scope.Affirms path →
      Node.scriptAll blocks room scope = (Node.scriptAll a).nested room scope) ∧
      (¬scope.Affirms path →
        Node.scriptAll blocks room scope = (Node.scriptAll b).nested room scope) := by
  intro blocks
  have hscript : Node.scriptAll blocks room scope =
      (Node.scriptAll a).conditional ⟨path, place⟩ true room scope ++
        ((Node.scriptAll b).conditional ⟨path, place'⟩ false room scope ++ []) := rfl
  rw [hscript, Script.conditional, Script.conditional, Scope.affirms_iff]
  refine ⟨fun h => ?_, fun h => ?_⟩
  · simp [h]
  · simp [Bool.eq_false_iff.mpr h]

/-- What the body of a block comes to where it is moved by `n` bytes. -/
theorem Template.report_nested (t : Template) {options : Options} {depth : Nat}
    (hdepth : options.maxDepth = depth + 1) (n : Nat) (context : Context) (name : Option String) :
    (perform options ((Node.scriptAll (Node.shiftAll n t.nodes)).nested options.maxDepth
        (.ofContext context))).report =
      ((t.render context { options with maxDepth := depth } name).result.mapError
        (RenderError.withLimit (depth + 1))).map (Report.shift n) := by
  rw [Node.scriptAll_shiftAll, hdepth, Template.result_render]
  exact report_perform_shift hdepth n (Node.scriptAll t.nodes depth (.ofContext context))

/-! ## The source of a complement -/

theorem BlockKind.openingText_negation_after (path a : String) :
    "\x7b\x7b#if " ++ path ++ "\x7d\x7d" ++ a ++ "\x7b\x7b/if\x7d\x7d\x7b\x7b#unless " ++ path ++
        "\x7d\x7d" =
      conditional.enclose path a ++ negation.openingText path := by
  rw [enclose, openingText_eq, openingText_eq]
  refine String.toList_injective ?_
  simp [closerText, markerText, keyword]

theorem BlockKind.enclose_negation_after (path a b : String) :
    "\x7b\x7b#if " ++ path ++ "\x7d\x7d" ++ a ++ "\x7b\x7b/if\x7d\x7d\x7b\x7b#unless " ++ path ++
        "\x7d\x7d" ++ b ++ "\x7b\x7b/unless\x7d\x7d" =
      conditional.enclose path a ++ negation.enclose path b := by
  rw [openingText_negation_after, enclose, enclose]
  simp only [String.append_assoc]
  rfl

/-- A conditional and a negation with the same path render as the one body or the other, with one
level less: the first if the path leads to a value that is not false, null, zero, no number or
empty, and the second if it leads to any other or to none. The path is no cause for a warning or an
error. Without a level for the body there is always the error that says so. -/
theorem Template.render_complement {path a b : String} {ta tb whole : Template}
    (hpath : Path.isValid path = true) (ha : Template.compile a = .ok ta)
    (hb : Template.compile b = .ok tb)
    (hwhole : Template.compile ("\x7b\x7b#if " ++ path ++ "\x7d\x7d" ++ a ++
      "\x7b\x7b/if\x7d\x7d\x7b\x7b#unless " ++ path ++ "\x7d\x7d" ++ b ++
      "\x7b\x7b/unless\x7d\x7d") = .ok whole)
    (context : Context) (options : Options) (name : Option String) :
    (∀ depth, options.maxDepth = depth + 1 →
      let shown (t : Template) (offset : Nat) : Except RenderError Report :=
        ((t.render context { options with maxDepth := depth } name).result.mapError
          (RenderError.withLimit (depth + 1))).map (Report.shift offset)
      ((Scope.ofContext context).Affirms path → (whole.render context options name).result =
          shown ta ("\x7b\x7b#if " ++ path ++ "\x7d\x7d").utf8ByteSize) ∧
        (¬(Scope.ofContext context).Affirms path → (whole.render context options name).result =
          shown tb ("\x7b\x7b#if " ++ path ++ "\x7d\x7d" ++ a ++
            "\x7b\x7b/if\x7d\x7d\x7b\x7b#unless " ++ path ++ "\x7d\x7d").utf8ByteSize)) ∧
      (options.maxDepth = 0 →
        (whole.render context options name).result = .error (.tooDeep 0)) := by
  rw [BlockKind.enclose_negation_after] at hwhole
  obtain ⟨span, span', span'', span''', hnodes⟩ :=
    Template.nodes_enclose_append hpath hpath ha hb hwhole
  rw [BlockKind.openingText_negation_after,
    show "\x7b\x7b#if " ++ path ++ "\x7d\x7d" = BlockKind.conditional.openingText path from
      (BlockKind.openingText_eq .conditional path).symm]
  generalize (BlockKind.conditional.openingText path).utf8ByteSize = n at hnodes ⊢
  generalize (BlockKind.conditional.enclose path a ++
    BlockKind.negation.openingText path).utf8ByteSize = n' at hnodes ⊢
  have hscript := Node.scriptAll_complement path span span'' (Node.shiftAll n ta.nodes)
    (Node.shiftAll n' tb.nodes) span' span''' options.maxDepth (.ofContext context)
  rw [← hnodes] at hscript
  rw [Template.result_render, Template.yield]
  refine ⟨fun depth hdepth => ⟨fun h => ?_, fun h => ?_⟩, fun hdepth => ?_⟩
  · rw [hscript.1 h]
    exact ta.report_nested hdepth n context name
  · rw [hscript.2 h]
    exact tb.report_nested hdepth n' context name
  · have hoverflow : Node.scriptAll whole.nodes options.maxDepth (.ofContext context) =
        [.overflow] := by
      by_cases h : (Scope.ofContext context).Affirms path
      · rw [hscript.1 h, hdepth]
        rfl
      · rw [hscript.2 h, hdepth]
        rfl
    rw [hoverflow, ← hdepth]
    rfl

/-- What is no number is taken for false, and a path that leads nowhere is not missed. -/
theorem Template.render_complement_nan :
    ∃ whole, Template.compile ("\x7b\x7b#if " ++ "x" ++ "\x7d\x7d" ++ "ü\x7b\x7ba\x7d\x7d" ++
        "\x7b\x7b/if\x7d\x7d\x7b\x7b#unless " ++ "x" ++ "\x7d\x7d" ++ "\x7b\x7bb\x7d\x7d" ++
        "\x7b\x7b/unless\x7d\x7d") = .ok whole ∧
      (whole.render ⟨[("x", .bool true)]⟩ { maxDepth := 1 } none).result =
        .ok ⟨"ü", [⟨.missing, "a", ⟨11, 16⟩⟩]⟩ ∧
      (whole.render ⟨[("x", .number ⟨false, Binary64.infinity + 1, by decide⟩)]⟩
        { maxDepth := 1 } none).result = .ok ⟨"", [⟨.missing, "b", ⟨36, 41⟩⟩]⟩ ∧
      (whole.render .empty { strict := true, maxDepth := 1 } none).result = .error (.missing "b") ∧
      (whole.render .empty { maxDepth := 0 } none).result = .error (.tooDeep 0) := by
  have ha : Template.compile "ü\x7b\x7ba\x7d\x7d" = .ok ⟨"ü\x7b\x7ba\x7d\x7d",
      [.literal "ü" ⟨0, 2⟩, .interpolation "a" ⟨2, 7⟩]⟩ := by
    cbv
  have hb : Template.compile "\x7b\x7bb\x7d\x7d" = .ok ⟨"\x7b\x7bb\x7d\x7d",
      [.interpolation "b" ⟨0, 5⟩]⟩ := by
    cbv
  have hwhole : Template.compile ("\x7b\x7b#if " ++ "x" ++ "\x7d\x7d" ++ "ü\x7b\x7ba\x7d\x7d" ++
      "\x7b\x7b/if\x7d\x7d\x7b\x7b#unless " ++ "x" ++ "\x7d\x7d" ++ "\x7b\x7bb\x7d\x7d" ++
      "\x7b\x7b/unless\x7d\x7d") = .ok
      ⟨"\x7b\x7b#if x\x7d\x7dü\x7b\x7ba\x7d\x7d\x7b\x7b/if\x7d\x7d" ++
          "\x7b\x7b#unless x\x7d\x7d\x7b\x7bb\x7d\x7d\x7b\x7b/unless\x7d\x7d",
        [.block .conditional ⟨"x", ⟨6, 7⟩⟩ [.literal "ü" ⟨9, 11⟩, .interpolation "a" ⟨11, 16⟩]
            ⟨0, 23⟩,
          .block .negation ⟨"x", ⟨33, 34⟩⟩ [.interpolation "b" ⟨36, 41⟩] ⟨23, 52⟩]⟩ := by
    cbv
  have hlaw := fun context options =>
    Template.render_complement (by decide) ha hb hwhole context options none
  have htrue : (Scope.ofContext ⟨[("x", .bool true)]⟩).Affirms "x" :=
    ⟨.bool true, rfl, fun hfalsy => by cases hfalsy⟩
  have hnan : ¬(Scope.ofContext
      ⟨[("x", .number ⟨false, Binary64.infinity + 1, by decide⟩)]⟩).Affirms "x" := by
    rintro ⟨value, hvalue, hfalsy⟩
    obtain rfl := Option.some.inj hvalue
    exact hfalsy (.notANumber (by decide))
  have habsent : ¬(Scope.ofContext .empty).Affirms "x" := by
    rintro ⟨value, hvalue, -⟩
    cases hvalue
  refine ⟨_, hwhole, ?_, ?_, ?_, (hlaw .empty { maxDepth := 0 }).2 rfl⟩
  · refine (((hlaw _ { maxDepth := 1 }).1 0 rfl).1 htrue).trans ?_
    simp only [Template.result_render]
    cbv
  · refine (((hlaw _ { maxDepth := 1 }).1 0 rfl).2 hnan).trans ?_
    simp only [Template.result_render]
    cbv
  · refine (((hlaw _ { strict := true, maxDepth := 1 }).1 0 rfl).2 habsent).trans ?_
    simp only [Template.result_render]
    cbv

end Stencil
