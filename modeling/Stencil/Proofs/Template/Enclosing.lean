import Stencil.Proofs.Template.Join
import Stencil.Proofs.Template.Recut

/-!
# A source inside a block

What comes of a source when an opener is written before it and a closer after it. The parts are cut
by themselves: a brace at the end of the source would go into the closer, which no longer compiles
then (`Template.ofChars_enclose_of_read`). So the forest of the whole is one block whose body is the
forest of the source, moved behind the opener (`Template.nodes_enclose`), and where another block
follows it is two such blocks (`Template.nodes_enclose_append`).
-/

namespace Stencil

namespace BlockKind

def openingText (kind : BlockKind) (path : String) : String :=
  markerText (kind.openerInner ' ' [] path)

/-- The source as the body of a block. -/
def enclose (kind : BlockKind) (path body : String) : String :=
  kind.openingText path ++ body ++ kind.closerText

theorem openingText_eq (kind : BlockKind) (path : String) :
    kind.openingText path = "\x7b\x7b#" ++ kind.keyword ++ " " ++ path ++ "\x7d\x7d" := by
  refine String.toList_injective ?_
  simp [openingText, openerInner, markerText]

theorem read_openerInner (kind : BlockKind) {path : String} (hpath : Path.isValid path = true) :
    Marker.read (kind.openerInner ' ' [] path) = .ok (.opener kind path) :=
  Marker.read_eq_opener_iff.mpr ⟨hpath, ' ', [], by decide, rfl, rfl⟩

end BlockKind

namespace Segment

/-- A block around a source is cut into its opener, the segments of the source and its closer,
whatever comes after it. -/
theorem ofChars_enclose_append (kind : BlockKind) {path body : String}
    (hpath : Path.isValid path = true) (hclosed : unterminated ∉ ofSource body)
    (hlast : body.toList.getLast? ≠ some '{') (rest : List Char) :
    ofChars ((kind.enclose path body).toList ++ rest) = marker (kind.openerInner ' ' [] path) ::
      (ofSource body ++ marker ("/" ++ kind.keyword) :: ofChars rest) := by
  have hopener := sound_of_read (kind.read_openerInner hpath)
  have hcloser := sound_of_read kind.read_closerInner
  simp only [BlockKind.enclose, String.toList_append, List.append_assoc]
  rw [BlockKind.openingText, ofChars_markerText hopener,
    ofChars_append hclosed fun hseam => hlast hseam.1, BlockKind.closerText,
    ofChars_markerText hcloser, glue_marker, ← ofSource]

/-- A brace at the end of a source goes into the closer that is written after it. -/
theorem mem_ofChars_enclose_append (kind : BlockKind) {path body : String}
    (hpath : Path.isValid path = true) (hclosed : unterminated ∉ ofSource body)
    (hlast : body.toList.getLast? = some '{') (rest : List Char) :
    marker (String.ofList ('{' :: ("/" ++ kind.keyword).toList)) ∈
      ofChars ((kind.enclose path body).toList ++ rest) := by
  have hopener := sound_of_read (kind.read_openerInner hpath)
  have hmem := mem_ofChars_of_getLast? hclosed hlast (sound_of_read kind.read_closerInner) rest
  simp only [BlockKind.enclose, String.toList_append, List.append_assoc]
  rw [BlockKind.openingText, ofChars_markerText hopener]
  refine List.mem_cons_of_mem _ ?_
  simpa [BlockKind.closerText, markerText] using hmem

end Segment

/-! ## The template of the whole -/

theorem Marker.read_brace (inner : List Char) :
    Marker.read (String.ofList ('{' :: inner)) =
      .error (.malformed (String.ofList ('{' :: inner))) := by
  have hvalid : Path.isValid (String.ofList ('{' :: inner)) = false := by
    rw [Path.isValid, String.toList_ofList]
    simp [show Text.isWordChar '{' = false by decide]
  rw [Marker.read, String.toList_ofList, hvalid]
  rfl

theorem Spells.eq_of_parse_eq_ok {source : String} {nodes nodes' : List Node} {stop : Nat}
    (h : Spells 0 (Segment.ofSource source) nodes stop) (h' : Node.parse source = .ok nodes') :
    nodes' = nodes := by
  rw [h.parse_eq] at h'
  split at h'
  · exact (Except.ok.inj h').symm
  · cases h'

namespace Template

variable {kind kind' : BlockKind} {path path' body body' : String} {t t' whole : Template}

/-- If the markers of a block around a source can be read, then the source does not end in an
opening brace, and is cut by itself. -/
theorem ofChars_enclose_of_read (hpath : Path.isValid path = true) (ht : compile body = .ok t)
    {rest : List Char}
    (hread : ∀ inner, .marker inner ∈ Segment.ofChars ((kind.enclose path body).toList ++ rest) →
      ∃ marker, Marker.read inner = .ok marker) :
    Segment.ofChars ((kind.enclose path body).toList ++ rest) =
      .marker (kind.openerInner ' ' [] path) ::
        (Segment.ofSource body ++ .marker ("/" ++ kind.keyword) :: Segment.ofChars rest) := by
  have hclosed := (spells_of_compile ht).1.not_mem_unterminated
  refine Segment.ofChars_enclose_append kind hpath hclosed (fun hlast => ?_) rest
  obtain ⟨marker, hmarker⟩ :=
    hread _ (Segment.mem_ofChars_enclose_append kind hpath hclosed hlast rest)
  rw [Marker.read_brace] at hmarker
  cases hmarker

/-- The segments of a block around a source spell the block around its forest. -/
theorem spells_enclose (kind : BlockKind) (hpath : Path.isValid path = true)
    (ht : compile body = .ok t) {start stop : Nat} {segments : List Segment} {nodes : List Node}
    (hrest : Spells (start + (kind.enclose path body).utf8ByteSize) segments nodes stop) :
    ∃ span span', Spells start (.marker (kind.openerInner ' ' [] path) ::
        (Segment.ofSource body ++ .marker ("/" ++ kind.keyword) :: segments))
      (.block kind ⟨path, span⟩
        (Node.shiftAll (start + (kind.openingText path).utf8ByteSize) t.nodes) span' :: nodes)
      stop := by
  have hbody := (spells_of_compile ht).1.shift (start + (kind.openingText path).utf8ByteSize)
  rw [Nat.zero_add] at hbody
  have hstart : start + (kind.openingText path).utf8ByteSize =
      start + (kind.openerInner ' ' [] path).utf8ByteSize + 4 := by
    rw [BlockKind.openingText, utf8ByteSize_markerText, Nat.add_assoc]
  have hstop : start + (kind.enclose path body).utf8ByteSize =
      body.utf8ByteSize + (start + (kind.openingText path).utf8ByteSize) +
        ("/" ++ kind.keyword).utf8ByteSize + 4 := by
    have hcloser := utf8ByteSize_markerText ("/" ++ kind.keyword)
    simp only [BlockKind.enclose, BlockKind.closerText, String.utf8ByteSize_append] at hcloser ⊢
    omega
  exact ⟨_, _, .block (kind.read_openerInner hpath) hstart hbody kind.read_closerInner hstop hrest⟩

/-- The template of one block around a source. -/
theorem nodes_enclose (hpath : Path.isValid path = true) (ht : compile body = .ok t)
    (hwhole : compile (kind.enclose path body) = .ok whole) :
    ∃ span span', whole.nodes = [.block kind ⟨path, span⟩
      (Node.shiftAll (kind.openingText path).utf8ByteSize t.nodes) span'] := by
  have hread : ∀ inner, .marker inner ∈ Segment.ofChars ((kind.enclose path body).toList ++ []) →
      ∃ marker, Marker.read inner = .ok marker := by
    rw [List.append_nil]
    exact fun _ => (spells_of_compile hwhole).1.read_of_mem
  have hsegments := ofChars_enclose_of_read hpath ht hread
  rw [List.append_nil, Segment.ofChars_nil] at hsegments
  obtain ⟨span, span', hblock⟩ := spells_enclose kind hpath ht (.nil _)
  rw [← hsegments, Nat.zero_add] at hblock
  exact ⟨span, span', hblock.eq_of_parse_eq_ok (compile_eq_ok_iff.mp hwhole).2⟩

/-- The template of two blocks, one after the other. -/
theorem nodes_enclose_append (hpath : Path.isValid path = true)
    (hpath' : Path.isValid path' = true) (ht : compile body = .ok t) (ht' : compile body' = .ok t')
    (hwhole : compile (kind.enclose path body ++ kind'.enclose path' body') = .ok whole) :
    ∃ span span' span'' span''', whole.nodes =
      [.block kind ⟨path, span⟩ (Node.shiftAll (kind.openingText path).utf8ByteSize t.nodes) span',
        .block kind' ⟨path', span''⟩ (Node.shiftAll
          (kind.enclose path body ++ kind'.openingText path').utf8ByteSize t'.nodes) span'''] := by
  have hread : ∀ inner, .marker inner ∈ Segment.ofChars
        ((kind.enclose path body).toList ++ (kind'.enclose path' body').toList) →
      ∃ marker, Marker.read inner = .ok marker := by
    rw [← String.toList_append]
    exact fun _ => (spells_of_compile hwhole).1.read_of_mem
  have hsegments := ofChars_enclose_of_read hpath ht hread
  -- The markers of the second block are among those of the whole.
  have hread' : ∀ inner, .marker inner ∈ Segment.ofChars
        ((kind'.enclose path' body').toList ++ []) →
      ∃ marker, Marker.read inner = .ok marker := by
    intro inner hmem
    rw [List.append_nil] at hmem
    refine hread inner ?_
    rw [hsegments]
    exact List.mem_cons_of_mem _ (List.mem_append_right _ (List.mem_cons_of_mem _ hmem))
  have hsegments' := ofChars_enclose_of_read hpath' ht' hread'
  rw [List.append_nil, Segment.ofChars_nil] at hsegments'
  obtain ⟨span'', span''', hsecond⟩ := spells_enclose kind' hpath' ht' (.nil _)
  obtain ⟨span, span', hblocks⟩ := spells_enclose kind hpath ht hsecond
  rw [← hsegments', ← hsegments, ← String.toList_append, Nat.zero_add, Nat.zero_add,
    ← String.utf8ByteSize_append] at hblocks
  exact ⟨span, span', span'', span''',
    hblocks.eq_of_parse_eq_ok (compile_eq_ok_iff.mp hwhole).2⟩

end Template

end Stencil
