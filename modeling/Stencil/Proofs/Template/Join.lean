import Stencil.Proofs.Template.Spelling

/-!
# Templates of joined sources

The forest of a source does not depend on where the source stands: further on it is the same up
to its spans (`Spells.shift`). So two sources that compile can be joined, and the template of the
whole is the first forest followed by the second, moved behind it; only a literal may run across
the seam (`Template.compile_append`). This needs that the seam makes no pair of braces, which is
the one way in which the end of a source and the beginning of another can make a marker.
-/

namespace Stencil

theorem Marker.utf8ByteSize_le_of_read {inner path : String} {kind : BlockKind}
    (h : Marker.read inner = .ok (.opener kind path)) : path.utf8ByteSize ≤ inner.utf8ByteSize := by
  obtain ⟨-, separator, blanks, -, -, rfl⟩ := Marker.read_eq_opener_iff.mp h
  simp only [BlockKind.openerInner, String.utf8ByteSize_append]
  omega

namespace Spells

variable {start mid stop : Nat} {segments segments' : List Segment} {nodes nodes' : List Node}

/-- The same segments further on in a source spell the same forest. -/
theorem shift (h : Spells start segments nodes stop) (n : Nat) :
    Spells (start + n) segments (Node.shiftAll n nodes) (stop + n) := by
  induction h with
  | nil start => exact .nil (start + n)
  | @text start mid stop content segments nodes hmid hrest ih =>
      have hmid' : mid + n = start + n + content.utf8ByteSize := by omega
      exact .text hmid' ih
  | @interpolation start mid stop inner path segments nodes hread hmid hrest ih =>
      have hmid' : mid + n = start + n + inner.utf8ByteSize + 4 := by omega
      exact .interpolation hread hmid' ih
  | @block start bodyStart bodyStop mid stop inner inner' kind path bodySegments segments body nodes
      hopen hstart hbody hclose hmid hrest ihbody ih =>
      have hpath := Marker.utf8ByteSize_le_of_read hopen
      have hsubject : Reference.shift n ⟨path, ⟨bodyStart - 2 - path.utf8ByteSize, bodyStart - 2⟩⟩ =
          ⟨path, ⟨bodyStart + n - 2 - path.utf8ByteSize, bodyStart + n - 2⟩⟩ := by
        simp only [Reference.shift, Span.shift, Reference.mk.injEq, Span.mk.injEq, true_and]
        omega
      rw [Node.shiftAll, Node.shift, hsubject]
      have hstart' : bodyStart + n = start + n + inner.utf8ByteSize + 4 := by omega
      have hmid' : mid + n = bodyStop + n + inner'.utf8ByteSize + 4 := by omega
      exact .block hopen hstart' ihbody hclose hmid' ih

theorem glue (h : Spells start segments nodes mid) (h' : Spells mid segments' nodes' stop) :
    Spells start (Segment.glue segments segments') (Node.join nodes nodes') stop := by
  induction h with
  | nil start => simpa [Node.join] using h'
  | interpolation hread hmid hrest ih =>
      rw [Segment.marker_glue, Node.join]
      · exact .interpolation hread hmid (ih h')
      · simp
  | block hopen hstart hbody hclose hmid hrest _ ih =>
      rw [Segment.marker_glue, Segment.append_marker_glue, Node.join]
      · exact .block hopen hstart hbody hclose hmid (ih h')
      · simp
  | @text start mid _ content _ _ hmid hrest ih =>
      -- A text at the seam meets what the second part begins with; any other is left alone.
      cases hrest with
      | nil =>
          cases h' with
          | nil => exact .text hmid (.nil _)
          | @text _ mid' _ content' segments' nodes' hmid' hrest' =>
              have hjoined : mid' = start + (content ++ content').utf8ByteSize := by
                rw [String.utf8ByteSize_append]
                omega
              exact .text hjoined hrest'
          | interpolation hread hmid' hrest' =>
              exact .text hmid (.interpolation hread hmid' hrest')
          | block hopen hstart hbody hclose hmid' hrest' =>
              exact .text hmid (.block hopen hstart hbody hclose hmid' hrest')
      | text | interpolation | block =>
          rw [Segment.cons_cons_glue, Node.join_cons_cons]
          exact .text hmid (ih h')

end Spells

/-- Sources that compile can be joined where that makes no pair of braces. -/
theorem Template.compile_append {source source' : String} {t t' : Template}
    (h : Template.compile source = .ok t) (h' : Template.compile source' = .ok t')
    (hseam : ¬(source.toList.getLast? = some '\x7b' ∧ source'.toList.head? = some '\x7b')) :
    Template.compile (source ++ source') = .ok ⟨source ++ source',
      Node.join t.nodes (Node.shiftAll source.utf8ByteSize t'.nodes)⟩ := by
  obtain ⟨hspells, hheight⟩ := Template.spells_of_compile h
  obtain ⟨hspells', hheight'⟩ := Template.spells_of_compile h'
  have hshift := hspells'.shift source.utf8ByteSize
  rw [Nat.zero_add] at hshift
  refine Template.compile_eq_ok_iff.mpr ⟨rfl, Node.parse_eq_ok_iff.mpr ⟨?_, ?_⟩⟩
  · rw [Segment.ofSource, String.toList_append,
      Segment.ofChars_append hspells.not_mem_unterminated hseam, String.utf8ByteSize_append,
      Nat.add_comm source.utf8ByteSize]
    exact hspells.glue hshift
  · rw [Node.heightAll_join, Node.heightAll_shiftAll]
    exact Nat.max_le.mpr ⟨hheight, hheight'⟩

end Stencil
