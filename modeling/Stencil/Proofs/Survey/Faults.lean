import Stencil.Proofs.Survey.Validity
import Stencil.Proofs.Template.Stopping

/-!
# Diagnoses of what does not compile

A parse stops at the first fault, while a survey goes on through the text. Up to that fault they see
the same markers, for what was read before it is well cut and its markers hold no brace. So a survey
finds no open brace before the place where a parse stopped (`Survey.unterminatedAt?_of_read`), and
one right there if the marker that stopped it is never closed. At the end of a source that is read
in full it has counted one opener more than closers for each block that is open there
(`Survey.errors_eq`).
-/

namespace Stencil

variable {source : String} {b : Builder} {read rest : List Segment} {segment : Segment}
  {e : ParseError}

/-! ## The pieces from a fault on -/

namespace Survey

namespace Piece

theorem exists_ofChars_eq_gap (cs : List Char) :
    ∃ gap after, ofChars cs = .gap gap :: after := by
  rw [ofChars]
  split
  · exact ⟨[], _, rfl⟩
  · cases cs with
    | nil => exact ⟨[], _, rfl⟩
    | cons c rest =>
        dsimp only
        cases ofChars rest with
        | nil => exact ⟨[c], _, rfl⟩
        | cons piece pieces =>
            cases piece with
            | gap content => exact ⟨c :: content, _, rfl⟩
            | marker inner => exact ⟨[c], _, rfl⟩

/-- A text without a closing pair has no marker. -/
theorem ofChars_of_not_closed {cs : List Char} (h : ¬['}', '}'] <:+: cs) :
    ofChars cs = [.gap cs] := by
  induction cs with
  | nil => exact ofChars_nil
  | cons c rest ih =>
      have hrest := ih fun hpair => h (hpair.trans (List.suffix_cons ..).isInfix)
      rw [ofChars]
      split
      · rename_i inner after hmarker
        rw [eq_of_markerHere? hmarker] at h
        exact absurd ⟨'{' :: '{' :: inner, after, by simp⟩ h
      · show extend c (ofChars rest) = _
        rw [hrest, extend]

end Piece

/-- A survey goes past all that was read before a segment. -/
theorem unterminatedAt?_of_read (hsource : Segment.ofSource source = read ++ segment :: rest)
    (hread : read.foldlM (Builder.step source) .start = .ok b) :
    ∃ tail, Segment.ofChars tail = segment :: rest ∧
      unterminatedAt? 0 (Piece.ofSource source) =
        unterminatedAt? b.offset (Piece.ofChars tail) := by
  have hholds := holds_of_foldlM hread
  have hclosed := hholds.not_mem_unterminated
  have hcut := Segment.wellCut_ofChars source.toList
  rw [← Segment.ofSource, hsource] at hcut
  have hlast := hcut.getLast?_ne hclosed
  have hcutRead := hcut.part (List.prefix_append read (segment :: rest)).isInfix
  obtain ⟨tail, hchars, htail⟩ := Segment.exists_rest_of_ofChars hsource hclosed
  obtain ⟨gap, after, hgap⟩ := Piece.exists_ofChars_eq_gap tail
  refine ⟨tail, htail, ?_⟩
  rw [Piece.ofSource, hchars, ofChars_of_holds hholds hcutRead fun h => hlast h.1, hgap,
    unterminatedAt?_foldr_prepend hcutRead hclosed fun h => hlast h.1, hholds.offset_eq,
    Nat.zero_add]

/-- The braces of a marker that is never closed are where a survey finds them. -/
theorem unterminatedAt?_of_unterminated
    (hsource : Segment.ofSource source = read ++ .unterminated :: rest)
    (hread : read.foldlM (Builder.step source) .start = .ok b) :
    unterminatedAt? 0 (Piece.ofSource source) = some b.offset := by
  obtain ⟨tail, htail, hplace⟩ := unterminatedAt?_of_read hsource hread
  obtain ⟨opened, rfl, hopened⟩ := Segment.exists_opened_of_ofChars htail
  have hclosed : ¬['}', '}'] <:+: '{' :: '{' :: opened := by
    rw [List.infix_cons_iff, List.infix_cons_iff]
    rintro (hfront | hfront | hpair)
    · obtain ⟨_, heq⟩ := hfront
      exact absurd (List.cons.inj heq).1 (by decide)
    · obtain ⟨_, heq⟩ := hfront
      exact absurd (List.cons.inj heq).1 (by decide)
    · exact hopened hpair
  rw [hplace, Piece.ofChars_of_not_closed hclosed]
  rfl

theorem ne_unterminated_of_balance {kind : BlockKind} {error : ValidationError}
    (h : balance source kind = some error) (p : Position) : error ≠ .unterminated p := by
  rintro rfl
  rw [balance] at h
  split at h
  · cases h
  · split at h <;> cases h

/-- The only open brace that a survey reports is the first one. -/
theorem unterminatedAt?_of_mem_errors {p : Position} (h : .unterminated p ∈ errors source) :
    ∃ offset, unterminatedAt? 0 (Piece.ofSource source) = some offset ∧
      p = Position.locate source offset := by
  rw [errors] at h
  rcases List.mem_append.mp h with hmem | hmem
  · obtain ⟨kind, -, hbalance⟩ := List.mem_filterMap.mp hmem
    exact absurd rfl (ne_unterminated_of_balance hbalance p)
  · rw [Option.mem_toList, Option.map_eq_some_iff] at hmem
    obtain ⟨offset, hoffset, heq⟩ := hmem
    cases heq
    exact ⟨offset, hoffset, rfl⟩

end Survey

/-! ## The messages of a survey -/

namespace ValidationError

theorem message_unclosed (kind : BlockKind) (count : Nat) :
    (unclosed kind count).message =
      "unclosed " ++ kind.keyword ++ ": " ++ toString count ++ " " ++ kind.openerText ++
        " without matching " ++ kind.closerText := rfl

theorem message_unexpected (kind : BlockKind) (count : Nat) :
    (unexpected kind count).message =
      "unexpected " ++ kind.closerText ++ ": " ++ toString count ++
        " closing tag(s) without a matching " ++ kind.openerText := rfl

theorem message_unterminated (p : Position) :
    (unterminated p).message =
      "unterminated tag at line " ++ toString p.line ++ ", column " ++ toString p.column := by
  have hmessage : (unterminated p).message = "unterminated tag at " ++ p.describe := rfl
  have hstart : "unterminated tag at line " = "unterminated tag at " ++ "line " := rfl
  rw [hmessage, Position.describe_eq, hstart]
  simp only [String.append_assoc]

/-- Whether a message is about a marker that is never closed. -/
def isOpenTag (message : String) : Bool := "unterminated tag".toList.isPrefixOf message.toList

theorem isOpenTag_unterminated (p : Position) : isOpenTag (unterminated p).message = true := by
  have hmessage : (unterminated p).message = "unterminated tag at " ++ p.describe := rfl
  have hstart : "unterminated tag at " = "unterminated tag" ++ " at " := rfl
  rw [isOpenTag, hmessage, hstart, String.append_assoc, String.toList_append,
    List.isPrefixOf_iff_prefix]
  exact List.prefix_append ..

/-- The messages about counts begin with other words. -/
theorem isOpenTag_of_ne {error : ValidationError} (h : ∀ p, error ≠ unterminated p) :
    isOpenTag error.message = false := by
  cases error with
  | unclosed kind count =>
      rw [isOpenTag, message_unclosed]
      simp only [String.append_assoc]
      rw [String.toList_append]
      rfl
  | unexpected kind count =>
      rw [isOpenTag, message_unexpected]
      simp only [String.append_assoc]
      rw [String.toList_append]
      rfl
  | unterminated p => exact absurd rfl (h p)

/-- A message about an open tag tells where it is. -/
theorem eq_of_message_eq {error : ValidationError} {p : Position}
    (h : error.message = (unterminated p).message) : error = unterminated p := by
  have hopen := isOpenTag_unterminated p
  rw [← h] at hopen
  cases error with
  | unclosed kind count =>
      rw [isOpenTag_of_ne fun _ => by simp] at hopen
      cases hopen
  | unexpected kind count =>
      rw [isOpenTag_of_ne fun _ => by simp] at hopen
      cases hopen
  | unterminated p' =>
      have hchars := congrArg String.toList h
      have hmessage : ∀ p : Position,
          (unterminated p).message.toList = "unterminated tag at ".toList ++ p.describe.toList := by
        intro p
        exact String.toList_append
      rw [hmessage, hmessage] at hchars
      rw [Position.describe_injective
        (String.toList_injective (List.append_cancel_left hchars))]

end ValidationError

/-! ## Both diagnoses -/

/-- Where a marker is never closed, a survey finds its braces. -/
theorem Survey.unterminatedAt?_of_compile (h : Template.compile source = .error e)
    (hfault : e.fault = .unterminated) :
    ∃ offset, unterminatedAt? 0 (Piece.ofSource source) = some offset ∧
      e.position = Position.locate source offset := by
  rcases Template.stop_of_compile_eq_error h with
    ⟨read, segment, rest, b, hsource, hread, hstep⟩ | ⟨b, block, outer, -, -, rfl⟩
  · obtain ⟨hlocated, hcause⟩ := Builder.step_eq_error hstep
    rcases hcause with ⟨-, rfl⟩ | ⟨hmarker, -⟩
    · refine ⟨b.offset, unterminatedAt?_of_unterminated hsource hread, ?_⟩
      rw [hlocated]
      rfl
    · exact absurd hfault hmarker.1
  · cases hfault

/-- An open brace that a survey reports is not before the place where the parse stopped. -/
theorem Survey.exists_error_of_unterminatedAt? {offset : Nat}
    (h : unterminatedAt? 0 (Piece.ofSource source) = some offset) :
    ∃ e, Template.compile source = .error e ∧ e.position ≤ Position.locate source offset := by
  cases hcompile : Template.compile source with
  | ok t =>
      rw [unterminatedAt?_eq_none (Template.spells_of_compile hcompile).1.holds] at h
      cases h
  | error e =>
      refine ⟨e, rfl, ?_⟩
      rcases Template.stop_of_compile_eq_error hcompile with
        ⟨read, segment, rest, b, hsource, hread, hstep⟩ | ⟨b, block, outer, hread, -, -⟩
      · obtain ⟨hlocated, -⟩ := Builder.step_eq_error hstep
        obtain ⟨tail, -, hplace⟩ := unterminatedAt?_of_read hsource hread
        rw [hplace] at h
        rw [hlocated]
        exact Position.locate_le_locate source (le_of_unterminatedAt? h)
      · rw [unterminatedAt?_eq_none (holds_of_foldlM hread)] at h
        cases h

/-- Where blocks are left open, a survey counts them. -/
theorem Survey.errors_of_unclosed {kind : BlockKind} (h : Template.compile source = .error e)
    (hfault : e.fault = .unclosed kind) :
    errors source = BlockKind.all.filterMap fun kind =>
      unclosed? kind (((openBlocks source).map Prod.fst).count kind) := by
  rcases Template.stop_of_compile_eq_error h with
    ⟨read, segment, rest, b, -, -, hstep⟩ | ⟨b, block, outer, hread, -, -⟩
  · obtain ⟨-, hcause⟩ := Builder.step_eq_error hstep
    rcases hcause with ⟨hopen, -⟩ | ⟨hmarker, -⟩
    · rw [hopen] at hfault
      cases hfault
    · exact absurd hfault (hmarker.2 kind)
  · have hholds := holds_of_foldlM hread
    have hopened : openBlocks source = b.enclosing.map fun block => (block.kind, block.openedAt) :=
      hholds.trackAll_eq
    have hkinds : (openBlocks source).map Prod.fst = b.enclosing.map OpenBlock.kind := by
      rw [hopened, List.map_map]
      rfl
    rw [hkinds]
    exact errors_eq hholds

namespace Validation

theorem filter_isOpenTag {offset : Nat}
    (h : Survey.unterminatedAt? 0 (Survey.Piece.ofSource source) = some offset) :
    (ofSource source).errors.filter ValidationError.isOpenTag =
      [(ValidationError.unterminated (Position.locate source offset)).message] := by
  have hcounts : ((BlockKind.all.filterMap (Survey.balance source)).map
      ValidationError.message).filter ValidationError.isOpenTag = [] := by
    refine List.filter_eq_nil_iff.mpr fun message hmem => ?_
    obtain ⟨error, herror, rfl⟩ := List.mem_map.mp hmem
    obtain ⟨kind, -, hbalance⟩ := List.mem_filterMap.mp herror
    rw [ValidationError.isOpenTag_of_ne (Survey.ne_unterminated_of_balance hbalance)]
    exact Bool.false_ne_true
  rw [ofSource, Survey.errors, h, Option.map_some, Option.toList_some, List.map_append,
    List.filter_append, hcounts, List.nil_append, List.map_singleton,
    List.filter_cons_of_pos (ValidationError.isOpenTag_unterminated _), List.filter_nil]

/-- A survey diagnoses what stops a parse. A marker that is never closed is reported where the parse
reports it; of a source that ends inside blocks exactly these are counted; and an open brace that is
reported comes after an error of the parse, or is one. -/
theorem diagnoses_compile_error (source : String) :
    (∀ e, Template.compile source = .error e → e.fault = .unterminated →
      (ofSource source).isValid = false ∧
        (ofSource source).errors.filter ValidationError.isOpenTag =
          ["unterminated tag at line " ++ toString e.position.line ++ ", column " ++
            toString e.position.column]) ∧
    (∀ e kind, Template.compile source = .error e → e.fault = .unclosed kind →
      (ofSource source).errors = BlockKind.all.filterMap fun kind =>
        if ((openBlocks source).map Prod.fst).count kind = 0 then none
        else some ("unclosed " ++ kind.keyword ++ ": " ++
          toString (((openBlocks source).map Prod.fst).count kind) ++ " " ++ kind.openerText ++
            " without matching " ++ kind.closerText)) ∧
    ∀ line column, "unterminated tag at line " ++ toString line ++ ", column " ++
        toString column ∈ (ofSource source).errors →
      ∃ e, Template.compile source = .error e ∧
        (e.position.line < line ∨ e.position.line = line ∧ e.position.column ≤ column) := by
  refine ⟨fun e h hfault => ?_, fun e kind h hfault => ?_, fun line column hmem => ?_⟩
  · obtain ⟨offset, hoffset, hposition⟩ := Survey.unterminatedAt?_of_compile h hfault
    have hfilter := filter_isOpenTag hoffset
    rw [← hposition, ValidationError.message_unterminated] at hfilter
    refine ⟨?_, hfilter⟩
    rw [isValid, List.isEmpty_eq_false_iff]
    intro hnil
    rw [hnil] at hfilter
    cases hfilter
  · rw [ofSource, Survey.errors_of_unclosed h hfault, List.map_filterMap]
    refine congrArg (List.filterMap · _) (funext fun kind => ?_)
    rw [Survey.unclosed?]
    split
    · rfl
    · exact congrArg some (ValidationError.message_unclosed ..)
  · rw [← ValidationError.message_unterminated ⟨line, column⟩] at hmem
    obtain ⟨error, herror, hmessage⟩ := List.mem_map.mp hmem
    rw [ValidationError.eq_of_message_eq hmessage] at herror
    obtain ⟨offset, hoffset, hposition⟩ := Survey.unterminatedAt?_of_mem_errors herror
    obtain ⟨e, hcompile, hle⟩ := Survey.exists_error_of_unterminatedAt? hoffset
    rw [← hposition] at hle
    exact ⟨e, hcompile, hle⟩

/-- A marker that is cut off inside a block; blocks of two kinds that are not closed; and a brace
too many, where the parse stops before the open marker of the next line. -/
theorem diagnoses_compile_error_cut :
    (∃ e, Template.compile "é\n\x7b\x7b#if x\x7d\x7d\x7b\x7ba" = .error e ∧
      e.fault = .unterminated ∧
      (ofSource "é\n\x7b\x7b#if x\x7d\x7d\x7b\x7ba").isValid = false ∧
      (ofSource "é\n\x7b\x7b#if x\x7d\x7d\x7b\x7ba").errors.filter ValidationError.isOpenTag =
        ["unterminated tag at line 2, column 10"]) ∧
    (∃ e, Template.compile
        "\x7b\x7b#each y\x7d\x7d\x7b\x7b#if x\x7d\x7d\x7b\x7b#if z\x7d\x7d" = .error e ∧
      e.fault = .unclosed .conditional ∧
      (ofSource "\x7b\x7b#each y\x7d\x7d\x7b\x7b#if x\x7d\x7d\x7b\x7b#if z\x7d\x7d").errors =
        ["unclosed if: 2 \x7b\x7b#if\x7d\x7d without matching \x7b\x7b/if\x7d\x7d",
          "unclosed each: 1 \x7b\x7b#each\x7d\x7d without matching \x7b\x7b/each\x7d\x7d"]) ∧
    (ofSource "\x7b\x7b\x7ba\x7d\x7d\n\x7b\x7bb").errors =
        ["unterminated tag at line 2, column 1"] ∧
      ∃ e, Template.compile "\x7b\x7b\x7ba\x7d\x7d\n\x7b\x7bb" = .error e ∧
        (e.position.line < 2 ∨ e.position.line = 2 ∧ e.position.column ≤ 1) := by
  refine ⟨?_, ?_, ?_⟩
  · have hcompile : Template.compile "é\n\x7b\x7b#if x\x7d\x7d\x7b\x7ba" =
        .error ⟨12, ⟨2, 10⟩, .unterminated⟩ := by
      cbv
    obtain ⟨hinvalid, hopen⟩ := (diagnoses_compile_error _).1 _ hcompile rfl
    exact ⟨_, hcompile, rfl, hinvalid, hopen⟩
  · have hcompile : Template.compile
        "\x7b\x7b#each y\x7d\x7d\x7b\x7b#if x\x7d\x7d\x7b\x7b#if z\x7d\x7d" =
        .error ⟨20, ⟨1, 21⟩, .unclosed .conditional⟩ := by
      cbv
    have herrors := (diagnoses_compile_error _).2.1 _ _ hcompile rfl
    have hopened : openBlocks "\x7b\x7b#each y\x7d\x7d\x7b\x7b#if x\x7d\x7d\x7b\x7b#if z\x7d\x7d" =
        [(.conditional, 20), (.conditional, 11), (.iteration, 0)] := by
      cbv
    rw [hopened] at herrors
    exact ⟨_, hcompile, rfl, herrors⟩
  · have herrors : (ofSource "\x7b\x7b\x7ba\x7d\x7d\n\x7b\x7bb").errors =
        ["unterminated tag at line 2, column 1"] := by
      have hsurvey : Survey.errors "\x7b\x7b\x7ba\x7d\x7d\n\x7b\x7bb" = [.unterminated ⟨2, 1⟩] := by
        cbv
      rw [ofSource, hsurvey]
      rfl
    refine ⟨herrors, (diagnoses_compile_error _).2.2 2 1 ?_⟩
    rw [herrors]
    exact List.mem_singleton_self _

end Validation

end Stencil
