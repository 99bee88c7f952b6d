import Stencil.Proofs.Survey.Stray
import Stencil.Proofs.Text.Lines

/-!
# Where diagnostics point

A diagnostic tells its place by line and column alone. Each place that one tells is where a marker
starts (`Template.opensAt_of_compile_eq_error`, `Template.opensAt_of_crossed`,
`Survey.Stray.opensAt`) and so lies between two characters, where no two places have the same line
and column (`Position.locate_inj`). So the position is that of just one marker
(`Position.locate_identifies`).
-/

namespace Stencil

open Survey (byteSize byteSize_toList byteSize_eq_utf8Len Occurrence Stray)

variable {source : String} {offset offset' : Nat} {p : Position}

/-! ## Places where a marker starts -/

/-- A doubled opening brace, with which every marker starts, stands at the byte. -/
def OpensAt (source : String) (offset : Nat) : Prop :=
  ∃ before after, source.toList = before ++ '{' :: '{' :: after ∧ byteSize before = offset

theorem OpensAt.isValid (h : OpensAt source offset) :
    (String.Pos.Raw.mk offset).IsValid source := by
  obtain ⟨before, after, hsource, rfl⟩ := h
  refine String.Pos.Raw.isValid_iff_exists_append.mpr
    ⟨String.ofList before, String.ofList ('{' :: '{' :: after), ?_, ?_⟩
  · rw [← String.ofList_append, ← hsource, String.ofList_toList]
  · rw [String.rawEndPos_ofList, byteSize_eq_utf8Len]

theorem Survey.Occurrence.opensAt (m : Occurrence source.toList) : OpensAt source m.start :=
  ⟨m.before, _, m.spelled, rfl⟩

theorem Survey.Stray.opensAt {before : List Char} (h : Stray source.toList before) :
    OpensAt source (byteSize before) := by
  obtain ⟨after, hsource⟩ := h.spelled
  exact ⟨before, after, hsource, rfl⟩

/-- A segment of a cut that is no text starts with an opening pair. -/
theorem Segment.exists_pair_of_ofChars {cs : List Char} {segment : Segment} {rest : List Segment}
    (h : ofChars cs = segment :: rest) (hmarker : ¬segment.IsText) :
    ∃ after, cs = '{' :: '{' :: after := by
  cases segment with
  | text content => exact absurd trivial hmarker
  | marker inner =>
      obtain ⟨tail, rfl, -⟩ := exists_rest_of_ofChars_cons h (by simp)
      exact ⟨inner.toList ++ '}' :: '}' :: tail, by simp [spelling, markerText]⟩
  | unterminated =>
      obtain ⟨opened, rfl, -⟩ := exists_opened_of_ofChars h
      exact ⟨opened, rfl⟩

theorem opensAt_of_cut {segment : Segment} {read rest : List Segment}
    (hsource : Segment.ofSource source = read ++ segment :: rest)
    (hclosed : .unterminated ∉ read) (hmarker : ¬segment.IsText) :
    OpensAt source (Segment.spellingAll read).utf8ByteSize := by
  obtain ⟨tail, hchars, htail⟩ := Segment.exists_rest_of_ofChars hsource hclosed
  obtain ⟨after, rfl⟩ := Segment.exists_pair_of_ofChars htail hmarker
  exact ⟨_, after, hchars, byteSize_toList _⟩

/-- The innermost block that is open after some segments was opened by one of them. -/
theorem opensAt_of_enclosing {b : Builder} {block : OpenBlock} {outer : List OpenBlock}
    {read rest : List Segment} (hsource : Segment.ofSource source = read ++ rest)
    (hread : read.foldlM (Builder.step source) .start = .ok b)
    (henclosing : b.enclosing = block :: outer) :
    OpensAt source block.openedAt ∧ block.openedAt < b.offset := by
  have hholds := holds_of_foldlM hread
  obtain ⟨before, inner, body, rfl, hopenedAt⟩ := hholds.exists_opener henclosing
  rw [List.append_assoc, List.cons_append] at hsource
  refine ⟨?_, ?_⟩
  · rw [hopenedAt]
    refine opensAt_of_cut hsource (fun hmem => ?_) (by simp [Segment.IsText])
    exact hholds.not_mem_unterminated (List.mem_append_left _ hmem)
  · rw [hopenedAt, hholds.offset_eq, Segment.spellingAll_append, Segment.spellingAll_cons,
      String.utf8ByteSize_append, String.utf8ByteSize_append, Segment.spelling,
      utf8ByteSize_markerText]
    omega

/-! ## What an error tells -/

theorem Marker.ne_crossed_of_read {inner : String} {fault : Fault}
    (h : Marker.read inner = .error fault) (kind openKind : BlockKind) (openedAt : Position) :
    fault ≠ .crossed kind openKind openedAt := by
  rintro rfl
  rw [Marker.read] at h
  split at h
  · rw [Marker.readOpener] at h
    simp only at h
    split at h
    · cases h
    · split at h
      · cases h
      · split at h <;> cases h
  · rw [Marker.readCloser] at h
    split at h <;> cases h
  · split at h <;> cases h

theorem Builder.exists_enclosing_of_crossed {b : Builder} {segment : Segment} {e : ParseError}
    {kind openKind : BlockKind} {openedAt : Position} (h : step source b segment = .error e)
    (hfault : e.fault = .crossed kind openKind openedAt) :
    ∃ block outer, b.enclosing = block :: outer ∧
      openedAt = Position.locate source block.openedAt := by
  cases segment with
  | text content => cases h
  | unterminated =>
      cases h
      cases hfault
  | marker inner =>
      rw [step] at h
      cases hread : Marker.read inner with
      | error fault =>
          rw [hread] at h
          cases h
          exact absurd hfault (Marker.ne_crossed_of_read hread kind openKind openedAt)
      | ok marker =>
          rw [hread] at h
          cases marker with
          | interpolation path => cases h
          | opener kind path =>
              simp only [readMarker] at h
              split at h <;> cases h
              cases hfault
          | closer kind =>
              simp only [readMarker] at h
              split at h
              · cases h
                cases hfault
              · rename_i block outer henclosing
                split at h <;> cases h
                cases hfault
                exact ⟨block, outer, henclosing, rfl⟩

namespace Template

variable {e : ParseError}

theorem opensAt_of_compile_eq_error (h : compile source = .error e) :
    OpensAt source e.offset ∧ e.position = Position.locate source e.offset := by
  rcases stop_of_compile_eq_error h with
    ⟨read, segment, rest, b, hsource, hread, hstep⟩ | ⟨b, block, outer, hread, henclosing, rfl⟩
  · have hholds := holds_of_foldlM hread
    obtain ⟨hlocated, hcause⟩ := Builder.step_eq_error hstep
    have hmarker : ¬segment.IsText := by
      rcases hcause with ⟨-, rfl⟩ | ⟨-, inner, rfl⟩ <;> simp [Segment.IsText]
    rw [hlocated]
    refine ⟨?_, rfl⟩
    have hopens := opensAt_of_cut hsource hholds.not_mem_unterminated hmarker
    rw [← hholds.offset_eq] at hopens
    exact hopens
  · exact ⟨(opensAt_of_enclosing (List.append_nil _).symm hread henclosing).1, rfl⟩

/-- A closer of the wrong kind comes after the opener of the block that it does not close. -/
theorem opensAt_of_crossed {kind openKind : BlockKind} {openedAt : Position}
    (h : compile source = .error e) (hfault : e.fault = .crossed kind openKind openedAt) :
    ∃ offset, OpensAt source offset ∧ openedAt = Position.locate source offset ∧
      offset < e.offset := by
  rcases stop_of_compile_eq_error h with
    ⟨read, segment, rest, b, hsource, hread, hstep⟩ | ⟨b, block, outer, -, -, rfl⟩
  · obtain ⟨hlocated, -⟩ := Builder.step_eq_error hstep
    obtain ⟨block, outer, henclosing, rfl⟩ := Builder.exists_enclosing_of_crossed hstep hfault
    obtain ⟨hopens, hlt⟩ := opensAt_of_enclosing hsource hread henclosing
    refine ⟨block.openedAt, hopens, rfl, ?_⟩
    rw [hlocated]
    exact hlt
  · cases hfault

end Template

/-- The positions that the diagnostics of a source tell: where its error is, where the block was
opened that a closer of the wrong kind leaves open, and where a survey finds an open tag. -/
inductive Diagnosed (source : String) : Position → Prop
  | error {e : ParseError} (h : Template.compile source = .error e) : Diagnosed source e.position
  | opener {e : ParseError} {kind openKind : BlockKind} {openedAt : Position}
      (h : Template.compile source = .error e)
      (hfault : e.fault = .crossed kind openKind openedAt) : Diagnosed source openedAt
  | openTag {position : Position} (h : .unterminated position ∈ Survey.errors source) :
      Diagnosed source position

theorem Diagnosed.exists_opensAt (h : Diagnosed source p) :
    ∃ offset, OpensAt source offset ∧ Position.locate source offset = p := by
  cases h with
  | error h =>
      obtain ⟨hopens, hposition⟩ := Template.opensAt_of_compile_eq_error h
      exact ⟨_, hopens, hposition.symm⟩
  | opener h hfault =>
      obtain ⟨offset, hopens, hposition, -⟩ := Template.opensAt_of_crossed h hfault
      exact ⟨offset, hopens, hposition.symm⟩
  | openTag h =>
      obtain ⟨offset, hoffset, hposition⟩ := Survey.unterminatedAt?_of_mem_errors h
      obtain ⟨before, hstray, hplace⟩ := Survey.stray_of_unterminatedAt? hoffset
      rw [Nat.zero_add] at hplace
      exact ⟨offset, hplace ▸ hstray.opensAt, hposition.symm⟩

/-! ## Positions and places -/

namespace Position

theorem one_le_locate (text : String) (offset : Nat) :
    1 ≤ (locate text offset).line ∧ 1 ≤ (locate text offset).column := by
  rw [locate, foldl_next_start]
  exact ⟨Nat.le_add_left 1 _, Nat.le_add_left 1 _⟩

theorem describe_locate_inj (h : (String.Pos.Raw.mk offset).IsValid source)
    (h' : (String.Pos.Raw.mk offset').IsValid source) :
    (locate source offset).describe = (locate source offset').describe ↔ offset = offset' :=
  ⟨fun heq => (locate_inj h h').mp (describe_injective heq),
    congrArg fun offset => (locate source offset).describe⟩

/-- Line and column are counted from one, and between two characters they tell the place: it is
found again from them, and places are in the order of their positions. So different markers have
positions that are written differently, each position that a diagnostic tells is that of just one
opening pair, and where it tells two, the opener comes first. -/
theorem locate_identifies (source : String) :
    (∀ offset, (String.Pos.Raw.mk offset).IsValid source →
      1 ≤ (locate source offset).line ∧ 1 ≤ (locate source offset).column ∧
        (locate source offset).offset? source = some offset) ∧
    (∀ offset offset', (String.Pos.Raw.mk offset).IsValid source →
      (String.Pos.Raw.mk offset').IsValid source →
      (locate source offset < locate source offset' ↔ offset < offset') ∧
        ((locate source offset).describe = (locate source offset').describe ↔
          offset = offset')) ∧
    (∀ m m' : Occurrence source.toList, m ≠ m' →
      (locate source m.start).describe ≠ (locate source m'.start).describe) ∧
    (∀ p, Diagnosed source p → ∃! offset, OpensAt source offset ∧ locate source offset = p) ∧
    ∀ e kind openKind openedAt, Template.compile source = .error e →
      e.fault = .crossed kind openKind openedAt → openedAt < e.position := by
  refine ⟨?_, ?_, ?_, ?_, ?_⟩
  · intro offset h
    obtain ⟨hline, hcolumn⟩ := one_le_locate source offset
    exact ⟨hline, hcolumn, offset?_locate h⟩
  · intro offset offset' h h'
    exact ⟨locate_lt_locate_iff h h', describe_locate_inj h h'⟩
  · intro m m' hne hsame
    have hstart := (describe_locate_inj m.opensAt.isValid m'.opensAt.isValid).mp hsame
    have hlt := m.start_lt_stop
    have hlt' := m'.start_lt_stop
    rcases Occurrence.disjoint_of_ne hne with hle | hle <;> omega
  · intro p h
    obtain ⟨offset, hopens, rfl⟩ := h.exists_opensAt
    refine ⟨offset, ⟨hopens, rfl⟩, ?_⟩
    rintro offset' ⟨hopens', hsame⟩
    exact (locate_inj hopens'.isValid hopens.isValid).mp hsame
  · intro e kind openKind openedAt h hfault
    obtain ⟨hopens, hposition⟩ := Template.opensAt_of_compile_eq_error h
    obtain ⟨offset, hopens', rfl, hlt⟩ := Template.opensAt_of_crossed h hfault
    rw [hposition]
    exact locate_lt_locate hopens'.isValid hopens.isValid hlt

/-- A closer of the wrong kind on the second line, after a letter of two bytes on the first. -/
theorem locate_identifies_crossed :
    ∃ source, source = "é\n\x7b\x7b#if x\x7d\x7d\x7b\x7b#each y\x7d\x7d\x7b\x7b/if\x7d\x7d" ∧
      OpensAt source 12 ∧ (locate source 12).offset? source = some 12 ∧
      locate source 12 < locate source 23 ∧
      (locate source 12).describe ≠ (locate source 23).describe ∧
      (∃ m m' : Occurrence source.toList, m ≠ m' ∧
        (locate source m.start).describe ≠ (locate source m'.start).describe) ∧
      (∃! offset, OpensAt source offset ∧ locate source offset = ⟨2, 10⟩) ∧
      ∃ e, Template.compile source = .error e ∧
        e.fault = .crossed .conditional .iteration ⟨2, 10⟩ ∧ ⟨2, 10⟩ < e.position := by
  let source := "é\n\x7b\x7b#if x\x7d\x7d\x7b\x7b#each y\x7d\x7d\x7b\x7b/if\x7d\x7d"
  have hcompile : Template.compile source =
      .error ⟨23, ⟨2, 21⟩, .crossed .conditional .iteration ⟨2, 10⟩⟩ := by
    cbv
  let opener : Occurrence source.toList :=
    ⟨"é\n\x7b\x7b#if x\x7d\x7d".toList, "#each y".toList, "\x7b\x7b/if\x7d\x7d".toList,
      by simp [Survey.isBrace], by cbv⟩
  let closer : Occurrence source.toList :=
    ⟨"é\n\x7b\x7b#if x\x7d\x7d\x7b\x7b#each y\x7d\x7d".toList, "/if".toList, [],
      by simp [Survey.isBrace], by cbv⟩
  have hopener : OpensAt source 12 := opener.opensAt
  have hcloser : OpensAt source 23 := closer.opensAt
  have hne : opener ≠ closer := by
    intro heq
    have hinner : "#each y".toList = "/if".toList := congrArg Occurrence.inner heq
    revert hinner
    decide
  obtain ⟨hfound, horder, hmarkers, hdiagnosed, hcrossed⟩ := locate_identifies source
  obtain ⟨hlt, hwritten⟩ := horder 12 23 hopener.isValid hcloser.isValid
  refine ⟨source, rfl, hopener, (hfound 12 hopener.isValid).2.2, hlt.mpr (by decide), ?_,
    ⟨opener, closer, hne, hmarkers opener closer hne⟩, hdiagnosed _ (.opener hcompile rfl),
    ⟨_, hcompile, rfl, hcrossed _ _ _ _ hcompile rfl⟩⟩
  rw [ne_eq, hwritten]
  decide

end Position

end Stencil
