import Stencil.Proofs.Template.Spelling

/-!
# Spans tile the source

Every node of a template knows the bytes that it was read from. `Tiles` says what stands there:
the spans of siblings follow one another without a gap, and the span of a block is an opener with
its path, the spans of its body, and a closer. `Template.compile_tiles` proves it of every
template that compiles, so that the pieces of the nodes in order are the source.
-/

namespace Stencil

/-! ## The text of a span -/

/-- The source reads `text` in the span, which starts and stops between characters. -/
def Span.Reads (source : String) (span : Span) (text : String) : Prop :=
  ∃ before after, source = before ++ text ++ after ∧ span.start = before.utf8ByteSize ∧
    span.stop = before.utf8ByteSize + text.utf8ByteSize

/-- Both ends of the span are boundaries of characters of the source. -/
def Span.OnBoundaries (source : String) (span : Span) : Prop :=
  (String.Pos.Raw.mk span.start).IsValid source ∧ (String.Pos.Raw.mk span.stop).IsValid source

namespace Span.Reads

variable {source text text' : String} {start mid stop : Nat}

theorem left (h : Reads source ⟨start, stop⟩ (text ++ text'))
    (hmid : mid = start + text.utf8ByteSize) : Reads source ⟨start, mid⟩ text := by
  obtain ⟨before, after, hsource, hstart, -⟩ := h
  refine ⟨before, text' ++ after, ?_, hstart, ?_⟩
  · rw [hsource]
    simp only [String.append_assoc]
  · simp only at hstart ⊢
    omega

theorem right (h : Reads source ⟨start, stop⟩ (text ++ text'))
    (hmid : mid = start + text.utf8ByteSize) : Reads source ⟨mid, stop⟩ text' := by
  obtain ⟨before, after, hsource, hstart, hstop⟩ := h
  simp only [String.utf8ByteSize_append] at hstart hstop
  refine ⟨before ++ text, after, ?_, ?_, ?_⟩
  · rw [hsource]
    simp only [String.append_assoc]
  · simp only [String.utf8ByteSize_append]
    omega
  · simp only [String.utf8ByteSize_append]
    omega

theorem append (h : Reads source ⟨start, mid⟩ text) (h' : Reads source ⟨mid, stop⟩ text') :
    Reads source ⟨start, stop⟩ (text ++ text') := by
  obtain ⟨before, after, hsource, hstart, hmid⟩ := h
  obtain ⟨before', after', hsource', hmid', hstop⟩ := h'
  have hsplit : (before ++ text).toByteArray ++ after.toByteArray =
      before'.toByteArray ++ (text' ++ after').toByteArray := by
    rw [← String.toByteArray_append, ← String.toByteArray_append, ← String.append_assoc, ← hsource,
      hsource']
  have hsize : (before ++ text).toByteArray.size = before'.toByteArray.size := by
    rw [String.size_toByteArray, String.size_toByteArray, String.utf8ByteSize_append]
    exact hmid.symm.trans hmid'
  obtain rfl := String.toByteArray_inj.mp (ByteArray.append_inj_left hsplit hsize)
  refine ⟨before, after', ?_, hstart, ?_⟩
  · rw [hsource']
    simp only [String.append_assoc]
  · simp only [String.utf8ByteSize_append] at hstop ⊢
    omega

theorem onBoundaries {span : Span} (h : Reads source span text) : span.OnBoundaries source := by
  obtain ⟨before, after, rfl, hstart, hstop⟩ := h
  have hvalid : (before ++ text).rawEndPos.IsValid (before ++ text ++ after) :=
    String.Pos.Raw.isValid_rawEndPos.append_right after
  have hvalid' : before.rawEndPos.IsValid (before ++ (text ++ after)) :=
    String.Pos.Raw.isValid_rawEndPos.append_right _
  refine ⟨?_, ?_⟩
  · rw [hstart, String.append_assoc]
    exact hvalid'
  · rw [hstop, ← String.utf8ByteSize_append]
    exact hvalid

theorem whole (source : String) : Reads source ⟨0, source.utf8ByteSize⟩ source :=
  ⟨"", "", by simp, by simp, by simp⟩

theorem eq_source (h : Reads source ⟨0, source.utf8ByteSize⟩ text) : text = source := by
  obtain ⟨before, after, hsource, hstart, hstop⟩ := h
  have hsize := congrArg String.utf8ByteSize hsource
  simp only [String.utf8ByteSize_append] at hsize hstart hstop
  have hbefore : before = "" := String.utf8ByteSize_eq_zero_iff.mp hstart.symm
  have hafter : after = "" := String.utf8ByteSize_eq_zero_iff.mp (by omega)
  rw [hsource, hbefore, hafter, String.empty_append, String.append_empty]

end Span.Reads

/-! ## Tilings -/

def Node.IsLiteral : Node → Prop
  | .literal _ _ => True
  | _ => False

/-- The nodes tile a span of the source: each begins where the one before it ends, and the
source reads in its span what the node says. -/
inductive Tiles (source : String) : Span → List Node → Prop
  | nil {start : Nat} (hstart : Span.Reads source ⟨start, start⟩ "") :
      Tiles source ⟨start, start⟩ []
  | literal {start mid stop : Nat} {text : String} {rest : List Node}
      (hempty : text ≠ "") (hpair : ¬['{', '{'] <:+: text.toList)
      (htext : Span.Reads source ⟨start, mid⟩ text)
      (hnext : ∀ node ∈ rest.head?, ¬node.IsLiteral) (hrest : Tiles source ⟨mid, stop⟩ rest) :
      Tiles source ⟨start, stop⟩ (.literal text ⟨start, mid⟩ :: rest)
  | interpolation {start mid stop : Nat} {path : String} {rest : List Node}
      (hpath : Path.isValid path = true) (htext : Span.Reads source ⟨start, mid⟩ (markerText path))
      (hrest : Tiles source ⟨mid, stop⟩ rest) :
      Tiles source ⟨start, stop⟩ (.interpolation path ⟨start, mid⟩ :: rest)
  | block {start bodyStart bodyStop mid stop : Nat} {kind : BlockKind} {subject : Reference}
      {body rest : List Node} {separator : Char} {blanks : List Char}
      (hpath : Path.isValid subject.path = true) (hseparator : Text.isSeparator separator = true)
      (hblanks : blanks.all Text.isBlank = true)
      (hopener : Span.Reads source ⟨start, bodyStart⟩
        (markerText (kind.openerInner separator blanks subject.path)))
      (hsubject : Span.Reads source subject.span subject.path)
      (hsubjectStop : subject.span.stop + 2 = bodyStart)
      (hbody : Tiles source ⟨bodyStart, bodyStop⟩ body)
      (hcloser : Span.Reads source ⟨bodyStop, mid⟩ kind.closerText)
      (hrest : Tiles source ⟨mid, stop⟩ rest) :
      Tiles source ⟨start, stop⟩ (.block kind subject body ⟨start, mid⟩ :: rest)

theorem Spells.isText_of_isLiteral {start stop : Nat} {segments : List Segment} {nodes : List Node}
    (h : Spells start segments nodes stop) {node : Node} (hnode : node ∈ nodes.head?)
    (hliteral : node.IsLiteral) : ∃ segment ∈ segments.head?, segment.IsText := by
  cases h with
  | nil => cases hnode
  | text => exact ⟨_, rfl, trivial⟩
  | interpolation =>
      obtain rfl := Option.some.inj hnode
      cases hliteral
  | block =>
      obtain rfl := Option.some.inj hnode
      cases hliteral

theorem Span.Reads.path {source : String} {start stop : Nat} {kind : BlockKind} {separator : Char}
    {blanks : List Char} {path : String}
    (h : Span.Reads source ⟨start, stop⟩ (markerText (kind.openerInner separator blanks path))) :
    Span.Reads source ⟨stop - 2 - path.utf8ByteSize, stop - 2⟩ path := by
  obtain ⟨before, after, hsource, hstart, hstop⟩ := h
  have hsplit : markerText (kind.openerInner separator blanks path) =
      ("\x7b\x7b#" ++ kind.keyword ++ String.ofList (separator :: blanks)) ++ path ++
        "\x7d\x7d" := by
    refine String.toList_injective ?_
    simp [markerText, BlockKind.openerInner]
  rw [hsplit] at hsource hstop
  generalize "\x7b\x7b#" ++ kind.keyword ++ String.ofList (separator :: blanks) = front
    at hsource hstop
  have hclose : ("\x7d\x7d" : String).utf8ByteSize = 2 := rfl
  simp only [String.utf8ByteSize_append, hclose] at hstop
  refine ⟨before ++ front, "\x7d\x7d" ++ after, ?_, ?_, ?_⟩
  · rw [hsource]
    simp only [String.append_assoc]
  · simp only [String.utf8ByteSize_append]
    omega
  · simp only [String.utf8ByteSize_append]
    omega

/-- A forest tiles the place where its segments are written. -/
theorem Spells.tiles {source : String} {start stop : Nat} {segments : List Segment}
    {nodes : List Node} (h : Spells start segments nodes stop) :
    Segment.WellCut segments → Span.Reads source ⟨start, stop⟩ (Segment.spellingAll segments) →
    Tiles source ⟨start, stop⟩ nodes := by
  induction h with
  | nil start => exact fun _ hreads => .nil hreads
  | @text start mid stop content segments nodes hmid hrest ih =>
      intro hcut hreads
      rw [Segment.spellingAll_cons] at hreads
      obtain ⟨hempty, hpair⟩ := hcut.sound _ (List.mem_cons_self ..)
      refine .literal hempty hpair (hreads.left hmid) (fun node hnode hliteral => ?_)
        (ih (hcut.part (List.suffix_cons ..).isInfix) (hreads.right hmid))
      -- A literal right after this one would come from a text right after this one.
      obtain ⟨segment, hsegment, htext⟩ := hrest.isText_of_isLiteral hnode hliteral
      exact ((List.isChain_cons.mp hcut.meets).1 segment hsegment).1 htext
  | @interpolation start mid stop inner path segments nodes hread hmid hrest ih =>
      intro hcut hreads
      rw [Segment.spellingAll_cons] at hreads
      obtain ⟨rfl, hpath⟩ := Marker.read_eq_interpolation_iff.mp hread
      have hmid' : mid = start + (Segment.marker inner).spelling.utf8ByteSize := by
        rw [Segment.spelling, utf8ByteSize_markerText]
        omega
      exact .interpolation hpath (hreads.left hmid')
        (ih (hcut.part (List.suffix_cons ..).isInfix) (hreads.right hmid'))
  | @block start bodyStart bodyStop mid stop inner inner' kind path bodySegments segments body nodes
      hopen hstart hbody hclose hmid hrest ihbody ih =>
      intro hcut hreads
      rw [Segment.spellingAll_cons, Segment.spellingAll_append, Segment.spellingAll_cons] at hreads
      obtain ⟨hpath, separator, blanks, hseparator, hblanks, rfl⟩ :=
        Marker.read_eq_opener_iff.mp hopen
      obtain rfl := Marker.read_eq_closer_iff.mp hclose
      have hstart' : bodyStart = start + (markerText _).utf8ByteSize :=
        hstart.trans (by rw [utf8ByteSize_markerText, Nat.add_assoc])
      have hmid' : mid = bodyStop + kind.closerText.utf8ByteSize :=
        hmid.trans (by rw [BlockKind.closerText, utf8ByteSize_markerText, Nat.add_assoc])
      have hbodyCut : Segment.WellCut bodySegments :=
        hcut.part ⟨[.marker _], .marker _ :: segments, rfl⟩
      have hrestCut : Segment.WellCut segments :=
        hcut.part ((List.suffix_cons ..).trans
          ((List.suffix_append ..).trans (List.suffix_cons ..))).isInfix
      have hopener := hreads.left hstart'
      have hafter := hreads.right hstart'
      have hcloser := hafter.right hbody.stop_eq
      have hsubjectStop : bodyStart - 2 + 2 = bodyStart := by omega
      exact .block hpath hseparator hblanks hopener hopener.path hsubjectStop
        (ihbody hbodyCut (hafter.left hbody.stop_eq)) (hcloser.left hmid')
        (ih hrestCut (hcloser.right hmid'))

/-! ## The pieces and the spans of a tiling -/

mutual

/-- The spans that a node is written in: its own, or those of the opener of a block, of the
pieces of its body and of its closer. -/
def Node.pieces : Node → List Span
  | .literal _ span => [span]
  | .interpolation _ span => [span]
  | .block kind subject body span =>
      ⟨span.start, subject.span.stop + 2⟩ ::
        (Node.piecesAll body ++ [⟨span.stop - kind.closerText.utf8ByteSize, span.stop⟩])

def Node.piecesAll : List Node → List Span
  | [] => []
  | node :: nodes => node.pieces ++ Node.piecesAll nodes

end

mutual

/-- Every span that a node carries, in its body as well. -/
def Node.spans : Node → List Span
  | .literal _ span => [span]
  | .interpolation _ span => [span]
  | .block _ subject body span => span :: subject.span :: Node.spansAll body

def Node.spansAll : List Node → List Span
  | [] => []
  | node :: nodes => node.spans ++ Node.spansAll nodes

end

/-- The pieces of a tiling follow one another, so that their texts make up what is tiled. -/
theorem Tiles.pieces {source : String} {span : Span} {nodes : List Node}
    (h : Tiles source span nodes) :
    ∃ texts, List.Forall₂ (Span.Reads source) (Node.piecesAll nodes) texts ∧
      Span.Reads source span (String.join texts) := by
  induction h with
  | nil hstart => exact ⟨[], .nil, by rwa [String.join_nil]⟩
  | @literal start mid stop text rest _ _ htext _ _ ih =>
      obtain ⟨texts, hpieces, hjoin⟩ := ih
      refine ⟨text :: texts, .cons htext hpieces, ?_⟩
      rw [String.join_cons]
      exact htext.append hjoin
  | @interpolation start mid stop path rest _ htext _ ih =>
      obtain ⟨texts, hpieces, hjoin⟩ := ih
      refine ⟨markerText path :: texts, .cons htext hpieces, ?_⟩
      rw [String.join_cons]
      exact htext.append hjoin
  | @block start bodyStart bodyStop mid stop kind subject body rest separator blanks
      _ _ _ hopener _ hsubjectStop _ hcloser _ ihbody ih =>
      obtain ⟨bodyTexts, hbodyPieces, hbodyJoin⟩ := ihbody
      obtain ⟨texts, hpieces, hjoin⟩ := ih
      have hcloserStart : mid - kind.closerText.utf8ByteSize = bodyStop := by
        obtain ⟨before, after, -, hstart, hstop⟩ := hcloser
        simp only at hstart hstop
        omega
      rw [Node.piecesAll, Node.pieces, hsubjectStop, hcloserStart]
      refine ⟨markerText (kind.openerInner separator blanks subject.path) ::
        (bodyTexts ++ [kind.closerText]) ++ texts, ?_, ?_⟩
      · exact List.rel_append (.cons hopener (List.rel_append hbodyPieces (.cons hcloser .nil)))
          hpieces
      · rw [String.join_append, String.join_cons, String.join_append, String.join_cons,
          String.join_nil, String.append_empty]
        exact (hopener.append (hbodyJoin.append hcloser)).append hjoin

theorem Tiles.onBoundaries {source : String} {span : Span} {nodes : List Node}
    (h : Tiles source span nodes) : ∀ inner ∈ Node.spansAll nodes, inner.OnBoundaries source := by
  induction h with
  | nil => exact fun _ hmem => absurd hmem List.not_mem_nil
  | literal _ _ htext _ _ ih =>
      rw [Node.spansAll, Node.spans, List.forall_mem_append, List.forall_mem_singleton]
      exact ⟨htext.onBoundaries, ih⟩
  | interpolation _ htext _ ih =>
      rw [Node.spansAll, Node.spans, List.forall_mem_append, List.forall_mem_singleton]
      exact ⟨htext.onBoundaries, ih⟩
  | block _ _ _ hopener hsubject _ _ hcloser _ ihbody ih =>
      rw [Node.spansAll, Node.spans, List.forall_mem_append, List.forall_mem_cons,
        List.forall_mem_cons]
      exact ⟨⟨⟨hopener.onBoundaries.1, hcloser.onBoundaries.2⟩, hsubject.onBoundaries, ihbody⟩, ih⟩

/-- The nodes of a template that compiles tile its source, at most `maxNesting` blocks deep;
their spans are on boundaries of characters and the texts of their pieces make up the source. -/
theorem Template.compile_tiles {source : String} {t : Template}
    (h : Template.compile source = .ok t) :
    Tiles source ⟨0, source.utf8ByteSize⟩ t.nodes ∧
      Node.heightAll t.nodes ≤ maxNesting ∧
      (∀ span ∈ Node.spansAll t.nodes, span.OnBoundaries source) ∧
      ∃ texts, List.Forall₂ (Span.Reads source) (Node.piecesAll t.nodes) texts ∧
        String.join texts = source := by
  obtain ⟨hspells, hheight⟩ := Template.spells_of_compile h
  have hreads : Span.Reads source ⟨0, source.utf8ByteSize⟩
      (Segment.spellingAll (Segment.ofSource source)) := by
    rw [spellingAll_ofSource hspells.not_mem_unterminated]
    exact .whole source
  have htiles := hspells.tiles (Segment.wellCut_ofChars source.toList) hreads
  obtain ⟨texts, hpieces, hjoin⟩ := htiles.pieces
  exact ⟨htiles, hheight, htiles.onBoundaries, texts, hpieces, hjoin.eq_source⟩

/-- A source with characters of several bytes in the text, in the opener and in the body. -/
theorem Template.compile_tiles_multibyte :
    ∃ t, Template.compile
        "ü\x7b\x7b#each \u2003rows\x7d\x7d\x7b\x7bname\x7d\x7d €\x7b\x7b/each\x7d\x7d" = .ok t ∧
      Node.piecesAll t.nodes = [⟨0, 2⟩, ⟨2, 19⟩, ⟨19, 27⟩, ⟨27, 31⟩, ⟨31, 40⟩] ∧
      Tiles "ü\x7b\x7b#each \u2003rows\x7d\x7d\x7b\x7bname\x7d\x7d €\x7b\x7b/each\x7d\x7d"
        ⟨0, 40⟩ t.nodes :=
  have hcompile : Template.compile
      "ü\x7b\x7b#each \u2003rows\x7d\x7d\x7b\x7bname\x7d\x7d €\x7b\x7b/each\x7d\x7d" =
      .ok ⟨"ü\x7b\x7b#each \u2003rows\x7d\x7d\x7b\x7bname\x7d\x7d €\x7b\x7b/each\x7d\x7d",
        [.literal "ü" ⟨0, 2⟩, .block .iteration ⟨"rows", ⟨13, 17⟩⟩
          [.interpolation "name" ⟨19, 27⟩, .literal " €" ⟨27, 31⟩] ⟨2, 40⟩]⟩ := by
    cbv
  ⟨_, hcompile, by decide, (compile_tiles hcompile).1⟩

end Stencil
