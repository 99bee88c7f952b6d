import Stencil.Proofs.Template.Spelling

/-!
# Open blocks

`openBlocks` lists the blocks that are open at the end of a source, read off its markers alone: an
opener opens a block and a closer closes the innermost one. These are the blocks that the builder
keeps on its stack (`Holds.trackAll_eq`), for a forest closes what it opens (`Spells.trackAll`).
-/

namespace Stencil

/-- The blocks that are open after a segment at the byte `offset`, innermost first, each with where
it was opened, if `opened` are those before it. -/
def Segment.track (offset : Nat) (opened : List (BlockKind × Nat)) :
    Segment → List (BlockKind × Nat)
  | .marker inner =>
    match Marker.read inner with
    | .ok (.opener kind _) => (kind, offset) :: opened
    | .ok (.closer _) => opened.tail
    | _ => opened
  | _ => opened

def Segment.trackAll (offset : Nat) (opened : List (BlockKind × Nat)) :
    List Segment → List (BlockKind × Nat)
  | [] => opened
  | segment :: rest =>
    trackAll (offset + segment.spelling.utf8ByteSize) (segment.track offset opened) rest

/-- The blocks that are still open at the end of a source. -/
def openBlocks (source : String) : List (BlockKind × Nat) :=
  Segment.trackAll 0 [] (Segment.ofSource source)

namespace Segment

theorem trackAll_append (before after : List Segment) : ∀ offset opened,
    trackAll offset opened (before ++ after) =
      trackAll (offset + (spellingAll before).utf8ByteSize) (trackAll offset opened before)
        after := by
  induction before with
  | nil => simp [trackAll]
  | cons segment before ih =>
      intro offset opened
      rw [List.cons_append, trackAll, trackAll, ih, spellingAll_cons, String.utf8ByteSize_append,
        Nat.add_assoc]

end Segment

/-- A forest closes all the blocks that it opens. -/
theorem Spells.trackAll {start stop : Nat} {segments : List Segment} {nodes : List Node}
    (h : Spells start segments nodes stop) :
    ∀ opened, Segment.trackAll start opened segments = opened := by
  induction h with
  | nil => exact fun _ => rfl
  | text hmid _ ih =>
      intro opened
      rw [Segment.trackAll, Segment.spelling, ← hmid]
      exact ih opened
  | interpolation hread hmid _ ih =>
      intro opened
      rw [Segment.trackAll, Segment.spelling, utf8ByteSize_markerText, ← Nat.add_assoc, ← hmid,
        Segment.track, hread]
      exact ih opened
  | @block start bodyStart bodyStop mid stop inner inner' kind path bodySegments segments body nodes
      hopen hstart hbody hclose hmid _ ihbody ih =>
      intro opened
      rw [Segment.trackAll, Segment.spelling, utf8ByteSize_markerText, ← Nat.add_assoc, ← hstart,
        Segment.track, hopen, Segment.trackAll_append, ihbody, ← hbody.stop_eq, Segment.trackAll,
        Segment.spelling, utf8ByteSize_markerText, ← Nat.add_assoc, ← hmid, Segment.track, hclose]
      exact ih opened

namespace Holds

variable {b : Builder} {read : List Segment}

theorem offset_eq (h : Holds b read) : b.offset = (Segment.spellingAll read).utf8ByteSize := by
  induction h with
  | top hspells => simpa using hspells.stop_eq
  | inside _ _ hstart hspells ih =>
      have hstop := hspells.stop_eq
      simp only [Segment.spellingAll_append, Segment.spellingAll_cons, Segment.spelling,
        String.utf8ByteSize_append, utf8ByteSize_markerText] at ih ⊢
      omega

theorem openedAt_le (h : Holds b read) : ∀ block ∈ b.enclosing, block.openedAt ≤ b.offset := by
  induction h with
  | top => simp
  | inside houter _ hstart hspells ih =>
      have hstop := hspells.stop_eq
      intro block hmem
      rcases List.mem_cons.mp hmem with rfl | hmem
      · simp only
        omega
      · have := ih block hmem
        simp only at this ⊢
        omega

theorem not_mem_unterminated (h : Holds b read) : Segment.unterminated ∉ read := by
  induction h with
  | top hspells => exact hspells.not_mem_unterminated
  | inside _ _ _ hspells ih => simpa using ⟨ih, hspells.not_mem_unterminated⟩

theorem read_of_mem (h : Holds b read) {inner : String} (hmem : .marker inner ∈ read) :
    ∃ marker, Marker.read inner = .ok marker := by
  induction h with
  | top hspells => exact hspells.read_of_mem hmem
  | inside _ hopen _ hspells ih =>
      rcases List.mem_append.mp hmem with hmem | hmem
      · exact ih hmem
      · rcases List.mem_cons.mp hmem with heq | hmem
        · cases heq
          exact ⟨_, hopen⟩
        · exact hspells.read_of_mem hmem

/-- The builder keeps track of the open blocks. -/
theorem trackAll_eq (h : Holds b read) :
    Segment.trackAll 0 [] read = b.enclosing.map fun block => (block.kind, block.openedAt) := by
  induction h with
  | top hspells => exact hspells.trackAll []
  | inside houter hopen hstart hspells ih =>
      have hoffset := houter.offset_eq
      simp only at hoffset
      rw [Segment.trackAll_append, ih, Nat.zero_add, ← hoffset, Segment.trackAll, Segment.spelling,
        utf8ByteSize_markerText, ← Nat.add_assoc, ← hstart, Segment.track, hopen]
      exact hspells.trackAll _

/-- The innermost open block starts with a marker. -/
theorem exists_opener {block : OpenBlock} {outer : List OpenBlock} (h : Holds b read)
    (hblock : b.enclosing = block :: outer) :
    ∃ before inner body, read = before ++ .marker inner :: body ∧
      block.openedAt = (Segment.spellingAll before).utf8ByteSize := by
  cases h with
  | top => cases hblock
  | inside houter _ _ _ =>
      cases hblock
      exact ⟨_, _, _, rfl, houter.offset_eq⟩

end Holds

end Stencil
