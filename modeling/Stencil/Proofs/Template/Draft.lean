import Stencil.Proofs.Template.Recut
import Stencil.Proofs.Template.Spelling

/-!
# Templates as they are written

A draft is a node before it is read: it has no spans, and the opener of a block says what blanks
stand before its path. `Draft.textAll` writes a forest of drafts down, and `Draft.nodesAt` is the
forest of nodes that they are at a place of a source. A forest is `Draft.WellFormed` if nothing in
it runs into what comes next: then the text is cut at the ends of the drafts, and the segments
spell the nodes.
-/

namespace Stencil

/-- What stands between the keyword of an opener and its path. -/
structure Spacing where
  separator : Char
  blanks : List Char
  isSeparator : Text.isSeparator separator = true
  isBlank : blanks.all Text.isBlank = true

inductive Draft where
  | literal (text : String)
  | interpolation (path : String)
  | block (kind : BlockKind) (spacing : Spacing) (path : String) (body : List Draft)

namespace Draft

def IsLiteral : Draft → Prop
  | literal _ => True
  | _ => False

/-- A forest that can be written down. `followed` says whether a marker comes right after it, as
the closer does after the body of a block: a brace at the end of a literal would go into it. -/
inductive WellFormed : Bool → List Draft → Prop
  | nil {followed : Bool} : WellFormed followed []
  | literal {followed : Bool} {text : String} {rest : List Draft}
      (hempty : text ≠ "") (hpair : ¬['{', '{'] <:+: text.toList)
      (hnext : ∀ next ∈ rest.head?, ¬next.IsLiteral)
      (hlast : rest ≠ [] ∨ followed = true → text.toList.getLast? ≠ some '{')
      (hrest : WellFormed followed rest) : WellFormed followed (.literal text :: rest)
  | interpolation {followed : Bool} {path : String} {rest : List Draft}
      (hpath : Path.isValid path = true) (hrest : WellFormed followed rest) :
      WellFormed followed (.interpolation path :: rest)
  | block {followed : Bool} {kind : BlockKind} {spacing : Spacing} {path : String}
      {body rest : List Draft} (hpath : Path.isValid path = true) (hbody : WellFormed true body)
      (hrest : WellFormed followed rest) :
      WellFormed followed (.block kind spacing path body :: rest)

/-! ## Writing -/

/-- What stands between the braces of the opener of a block. -/
def openerInner (kind : BlockKind) (spacing : Spacing) (path : String) : String :=
  kind.openerInner spacing.separator spacing.blanks path

mutual

def text : Draft → String
  | literal text => text
  | interpolation path => markerText path
  | block kind spacing path body =>
    markerText (openerInner kind spacing path) ++ textAll body ++ kind.closerText

def textAll : List Draft → String
  | [] => ""
  | draft :: rest => draft.text ++ textAll rest

end

mutual

/-- The node that the draft is when it is written at the byte `start`. -/
def nodeAt (start : Nat) : Draft → Node
  | literal text => .literal text ⟨start, start + text.utf8ByteSize⟩
  | interpolation path => .interpolation path ⟨start, start + (markerText path).utf8ByteSize⟩
  | block kind spacing path body =>
    let bodyStart := start + (markerText (openerInner kind spacing path)).utf8ByteSize
    .block kind ⟨path, ⟨bodyStart - 2 - path.utf8ByteSize, bodyStart - 2⟩⟩
      (nodesAt bodyStart body)
      ⟨start, bodyStart + (textAll body).utf8ByteSize + kind.closerText.utf8ByteSize⟩

def nodesAt (start : Nat) : List Draft → List Node
  | [] => []
  | draft :: rest => draft.nodeAt start :: nodesAt (start + draft.text.utf8ByteSize) rest

end

mutual

def segments : Draft → List Segment
  | literal text => [.text text]
  | interpolation path => [.marker path]
  | block kind spacing path body =>
    .marker (openerInner kind spacing path) ::
      (segmentsAll body ++ [.marker ("/" ++ kind.keyword)])

def segmentsAll : List Draft → List Segment
  | [] => []
  | draft :: rest => draft.segments ++ segmentsAll rest

end

theorem segmentsAll_block (kind : BlockKind) (spacing : Spacing) (path : String)
    (body rest : List Draft) :
    segmentsAll (.block kind spacing path body :: rest) =
      .marker (openerInner kind spacing path) ::
        (segmentsAll body ++ .marker ("/" ++ kind.keyword) :: segmentsAll rest) := by
  simp [segmentsAll, segments]

/-! ## What is written is cut as it is meant -/

theorem read_openerInner (kind : BlockKind) (spacing : Spacing) {path : String}
    (hpath : Path.isValid path = true) :
    Marker.read (openerInner kind spacing path) = .ok (.opener kind path) :=
  Marker.read_eq_opener_iff.mpr
    ⟨hpath, spacing.separator, spacing.blanks, spacing.isSeparator, spacing.isBlank, rfl⟩

mutual

theorem spellingAll_segments : ∀ draft : Draft, Segment.spellingAll draft.segments = draft.text
  | .literal text => by simp [segments, Draft.text, Segment.spelling]
  | .interpolation path => by simp [segments, Draft.text, Segment.spelling]
  | .block kind spacing path body => by
      have hbody := spellingAll_segmentsAll body
      simp [segments, Draft.text, Segment.spelling, BlockKind.closerText, hbody,
        String.append_assoc]

theorem spellingAll_segmentsAll : ∀ drafts : List Draft,
    Segment.spellingAll (segmentsAll drafts) = textAll drafts
  | [] => by simp [segmentsAll, textAll]
  | draft :: rest => by
      rw [segmentsAll, textAll, Segment.spellingAll_append, spellingAll_segments draft,
        spellingAll_segmentsAll rest]

end

namespace WellFormed

variable {followed : Bool} {drafts : List Draft}

/-- The first segment is a text only where a literal comes first. -/
theorem isLiteral_of_isText {segment : Segment} (hsegment : segment ∈ (segmentsAll drafts).head?)
    (htext : segment.IsText) : ∃ draft ∈ drafts.head?, draft.IsLiteral := by
  cases drafts with
  | nil => cases hsegment
  | cons draft rest =>
      refine ⟨draft, rfl, ?_⟩
      cases draft with
      | literal => trivial
      | interpolation | block =>
          obtain rfl := Option.some.inj hsegment
          cases htext

theorem wellCut (h : WellFormed followed drafts) : ∀ after : List Segment,
    Segment.WellCut after → (∀ next ∈ after.head?, ¬next.IsText ∧ followed = true) →
    Segment.WellCut (segmentsAll drafts ++ after) := by
  induction h with
  | nil => exact fun after hafter _ => hafter
  | @literal followed text rest hempty hpair hnext hlast hrest ih =>
      intro after hafter hhead
      refine .cons ⟨hempty, hpair⟩ (fun next hmem => ?_) (ih after hafter hhead)
      -- Next comes what the rest begins with, or else what comes after the forest.
      cases rest with
      | nil =>
          obtain ⟨hnext, hfollowed⟩ := hhead next hmem
          exact ⟨hnext, hlast (.inr hfollowed)⟩
      | cons draft rest =>
          refine ⟨fun htext => ?_, hlast (.inl (List.cons_ne_nil _ _))⟩
          have hmem' : next ∈ (segmentsAll (draft :: rest)).head? := by
            cases draft <;> exact hmem
          obtain ⟨first, hfirst, hliteral⟩ := isLiteral_of_isText hmem' htext
          exact hnext first hfirst hliteral
  | @interpolation followed path rest hpath hrest ih =>
      intro after hafter hhead
      have hread := Marker.read_eq_interpolation_iff.mpr ⟨rfl, hpath⟩
      exact .cons (Segment.sound_of_read hread) (fun _ _ => trivial) (ih after hafter hhead)
  | @block followed kind spacing path body rest hpath hbody hrest ihbody ih =>
      intro after hafter hhead
      have hcloser : Segment.WellCut
          (.marker ("/" ++ kind.keyword) :: (segmentsAll rest ++ after)) :=
        .cons (Segment.sound_of_read kind.read_closerInner) (fun _ _ => trivial)
          (ih after hafter hhead)
      have hinside := ihbody _ hcloser fun next hmem => by
        obtain rfl := Option.some.inj hmem
        exact ⟨not_false, rfl⟩
      rw [segmentsAll_block, List.cons_append, List.append_assoc, List.cons_append]
      exact .cons (Segment.sound_of_read (read_openerInner kind spacing hpath))
        (fun _ _ => trivial) hinside

theorem spells (h : WellFormed followed drafts) : ∀ start : Nat,
    Spells start (segmentsAll drafts) (nodesAt start drafts)
      (start + (textAll drafts).utf8ByteSize) := by
  induction h with
  | nil => exact fun start => .nil start
  | @literal followed text rest _ _ _ _ _ ih =>
      intro start
      rw [textAll, String.utf8ByteSize_append, ← Nat.add_assoc]
      exact .text rfl (ih _)
  | @interpolation followed path rest hpath _ ih =>
      intro start
      rw [textAll, String.utf8ByteSize_append, ← Nat.add_assoc]
      have hread := Marker.read_eq_interpolation_iff.mpr ⟨rfl, hpath⟩
      exact .interpolation hread (by rw [utf8ByteSize_markerText, Nat.add_assoc]) (ih _)
  | @block followed kind spacing path body rest hpath _ _ ihbody ih =>
      intro start
      have hstop : start + (textAll (.block kind spacing path body :: rest)).utf8ByteSize =
          start + (Draft.block kind spacing path body).text.utf8ByteSize +
            (textAll rest).utf8ByteSize := by
        rw [textAll, String.utf8ByteSize_append, Nat.add_assoc]
      have hmid : start + (Draft.block kind spacing path body).text.utf8ByteSize =
          start + (markerText (openerInner kind spacing path)).utf8ByteSize +
            (textAll body).utf8ByteSize + kind.closerText.utf8ByteSize := by
        simp only [Draft.text, String.utf8ByteSize_append]
        omega
      rw [segmentsAll_block, hstop, nodesAt, nodeAt, hmid]
      refine .block (read_openerInner kind spacing hpath) ?_ (ihbody _) kind.read_closerInner ?_
        (ih _)
      · rw [utf8ByteSize_markerText, Nat.add_assoc]
      · have hcloser := utf8ByteSize_markerText ("/" ++ kind.keyword)
        rw [BlockKind.closerText]
        omega

/-- The text of a forest is cut at the ends of its drafts. -/
theorem ofSource_textAll (h : WellFormed false drafts) :
    Segment.ofSource (textAll drafts) = segmentsAll drafts := by
  have hcut := h.wellCut [] .nil (by simp)
  rw [List.append_nil] at hcut
  rw [Segment.ofSource, ← spellingAll_segmentsAll]
  exact Segment.ofChars_spellingAll hcut (h.spells 0).not_mem_unterminated

end WellFormed

/-- Blocks one inside the other. -/
def nested : Nat → List Draft
  | 0 => []
  | levels + 1 => [block .conditional ⟨' ', [], rfl, rfl⟩ "a" (nested levels)]

theorem wellFormed_nested (levels : Nat) : ∀ followed, WellFormed followed (nested levels) := by
  induction levels with
  | zero => exact fun _ => .nil
  | succ levels ih => exact fun _ => .block (by decide) (ih true) .nil

theorem heightAll_nested (levels : Nat) : ∀ start,
    Node.heightAll (nodesAt start (nested levels)) = levels := by
  induction levels with
  | zero => exact fun _ => rfl
  | succ levels ih =>
      intro start
      simp [nested, nodesAt, nodeAt, Node.heightAll, Node.height, ih]

end Draft

/-- A forest that is written down is read back, each node with the bytes that it is written in. If
its blocks are nested too deep then that is reported at the first opener that is. -/
theorem Template.compile_textAll {drafts : List Draft} (h : Draft.WellFormed false drafts) :
    (Node.heightAll (Draft.nodesAt 0 drafts) ≤ maxNesting →
      Template.compile (Draft.textAll drafts) =
        .ok ⟨Draft.textAll drafts, Draft.nodesAt 0 drafts⟩) ∧
    (maxNesting < Node.heightAll (Draft.nodesAt 0 drafts) → ∃ offset,
      (Node.openersAll 1 (Draft.nodesAt 0 drafts)).find? (fun opener =>
        opener.2 = maxNesting + 1) = some (offset, maxNesting + 1) ∧
      Template.compile (Draft.textAll drafts) =
        .error (.locate (Draft.textAll drafts) offset (.tooDeep maxNesting))) := by
  have hspells := h.spells 0
  rw [← h.ofSource_textAll] at hspells
  have hparse := hspells.parse_eq
  have hfirst := Node.find?_openersAll 1 maxNesting (Draft.nodesAt 0 drafts)
  refine ⟨fun hheight => ?_, fun hheight => ?_⟩
  · rw [Node.tooDeepAtAll?_eq_none_iff _ _ |>.mpr hheight] at hparse
    rw [Template.compile, hparse]
    rfl
  · cases hdeep : Node.tooDeepAtAll? maxNesting (Draft.nodesAt 0 drafts) with
    | none => exact absurd (Node.tooDeepAtAll?_eq_none_iff _ _ |>.mp hdeep) (by omega)
    | some offset =>
        rw [hdeep] at hparse hfirst
        refine ⟨offset, ?_, ?_⟩
        · rw [Nat.add_comm maxNesting 1]
          exact hfirst
        · rw [Template.compile, hparse]
          rfl

/-- Single braces and a closing pair beside markers, an opener with blanks of several kinds, and a
block inside a block; and as many blocks inside each other as are just too many. -/
theorem Template.compile_textAll_spaced :
    (∃ drafts, Draft.WellFormed false drafts ∧
      Draft.textAll drafts =
        "\x7d\x7d\x7b \x7b\x7b#each\n\u2003\x0brows\x7d\x7d\x7d\x7b\x7b@index\x7d\x7d" ++
        "\x7b\x7b#unless this.done\x7d\x7d\x7b\x7b/unless\x7d\x7d\x7b\x7b/each\x7d\x7d\x7b" ∧
      Template.compile (Draft.textAll drafts) =
        .ok ⟨Draft.textAll drafts, Draft.nodesAt 0 drafts⟩) ∧
    ∃ drafts offset, Draft.WellFormed false drafts ∧
      maxNesting < Node.heightAll (Draft.nodesAt 0 drafts) ∧
      Template.compile (Draft.textAll drafts) =
        .error (.locate (Draft.textAll drafts) offset (.tooDeep maxNesting)) := by
  refine ⟨?_, ?_⟩
  · have hbody : Draft.WellFormed true [.literal "\x7d", .interpolation "@index",
        .block .negation ⟨' ', [], rfl, rfl⟩ "this.done" []] :=
      .literal (by decide) (by decide) (by simp [Draft.IsLiteral]) (by decide)
        (.interpolation (by decide) (.block (by decide) .nil .nil))
    have hdrafts : Draft.WellFormed false [.literal "\x7d\x7d\x7b ",
        .block .iteration ⟨'\n', ['\u2003', '\x0b'], rfl, rfl⟩ "rows"
          [.literal "\x7d", .interpolation "@index",
            .block .negation ⟨' ', [], rfl, rfl⟩ "this.done" []], .literal "\x7b"] :=
      .literal (by decide) (by decide) (by simp [Draft.IsLiteral]) (by decide)
        (.block (by decide) hbody
          (.literal (by decide) (by decide) (by simp) (by decide) .nil))
    exact ⟨_, hdrafts, by decide, (compile_textAll hdrafts).1 (by decide)⟩
  · have hdrafts := Draft.wellFormed_nested (maxNesting + 1) false
    have hheight :
        maxNesting < Node.heightAll (Draft.nodesAt 0 (Draft.nested (maxNesting + 1))) := by
      rw [Draft.heightAll_nested]
      exact Nat.lt_succ_self _
    obtain ⟨offset, -, hcompile⟩ := (compile_textAll hdrafts).2 hheight
    exact ⟨_, offset, hdrafts, hheight, hcompile⟩

end Stencil
