import Stencil.Proofs.Checked.Slice
import Stencil.Proofs.Template.Join

/-!
# A checked scan

The scan of a source as it goes over the bytes: `turn?` looks for the next marker from the byte that
the reader is at, cuts out what it finds and takes in the marker; `scan?` takes turns until there is
an answer. All cutting and counting is checked, and a turn has to bring the reader further.

The reader comes from turn to turn with `Reader.Sound` and with the rest of the source in front
of it, from which everything else follows: it does what the builder does with the segments of that
rest (`scan?_eq`), so every source has an answer, and it is that of `Template.compile`
(`compile?_eq`).
-/

namespace Stencil.Checked

open Survey (byteSize)

/-! ## The scan -/

/-- How many bytes come before the first two adjacent copies of `mark`. -/
def findPair? (mark : Char) (text : String) : Option Nat :=
  (cutAtPair mark text.toList).map fun cut => byteSize cut.1

/-- A builder that counts the blocks that it goes into and comes out of. -/
structure Reader extends Builder where
  depth : Nat
  deriving Repr

/-- What a turn comes to: an answer, or a reader that goes on. -/
inductive Turn where
  | stop (answer : Except ParseError (List Node))
  | go (next : Reader)

/-- The fault at the byte `offset`, with its position. -/
def fail? (source : String) (offset : Nat) (fault : Fault) : Option Turn := do
  let position ← position? source offset
  some (.stop (.error ⟨offset, position, fault⟩))

/-- Adds the text up to the byte `stop`, unless it is empty. -/
def pushText? (source : String) (b : Builder) (stop : Nat) : Option Builder :=
  if b.offset < stop then do
    let text ← slice? source b.offset stop
    some (b.push (.literal text ⟨b.offset, stop⟩) stop)
  else some { b with offset := stop }

def finish? (source : String) (b : Builder) : Option Turn :=
  match b.enclosing with
  | [] => some (.stop (.ok b.siblings.reverse))
  | block :: _ => fail? source block.openedAt (.unclosed block.kind)

/-- Takes in the marker that starts at the byte the reader is at. The text between its braces goes
from the byte `start` up to `stop`. -/
def takeMarker? (source : String) (r : Reader) (start stop : Nat) (inner : String) :
    Marker → Option Turn
  | .interpolation path =>
    some (.go ⟨r.push (.interpolation path ⟨r.offset, stop + 2⟩) (stop + 2), r.depth⟩)
  | .opener kind path =>
    if r.depth < maxNesting then do
      let skipped ← less? inner.utf8ByteSize path.utf8ByteSize
      let subject := ⟨path, ⟨start + skipped, start + skipped + path.utf8ByteSize⟩⟩
      let depth ← next? maxNesting r.depth
      some (.go ⟨⟨stop + 2, [], ⟨kind, subject, r.offset, r.siblings⟩ :: r.enclosing⟩, depth⟩)
    else fail? source r.offset (.tooDeep maxNesting)
  | .closer kind =>
    match r.enclosing with
    | [] => fail? source r.offset (.unmatched kind)
    | block :: outer =>
      if block.kind = kind then do
        let depth ← less? r.depth 1
        let node := .block kind block.subject r.siblings.reverse ⟨block.openedAt, stop + 2⟩
        some (.go ⟨⟨stop + 2, node :: block.before, outer⟩, depth⟩)
      else do
        let openedAt ← position? source block.openedAt
        fail? source r.offset (.crossed kind block.kind openedAt)

/-- Looks for the closing braces of the marker that starts at the byte the reader is at. -/
def close? (source : String) (r : Reader) : Option Turn := do
  let start := r.offset + 2
  let opened ← slice? source start source.utf8ByteSize
  match findPair? '}' opened with
  | none => fail? source r.offset .unterminated
  | some size => do
    let inner ← slice? source start (start + size)
    match Marker.read inner with
    | .error fault => fail? source r.offset fault
    | .ok marker => takeMarker? source r start (start + size) inner marker

def turn? (source : String) (r : Reader) : Option Turn := do
  let rest ← slice? source r.offset source.utf8ByteSize
  match findPair? '{' rest with
  | none => do
    let b ← pushText? source r.toBuilder source.utf8ByteSize
    finish? source b
  | some size => do
    let b ← pushText? source r.toBuilder (r.offset + size)
    close? source ⟨b, r.depth⟩

/-- The answer for what is in front of the reader. A turn that goes on has to bring the reader
further, and not beyond the end of the source. -/
def scan? (source : String) (r : Reader) : Option (Except ParseError (List Node)) :=
  match turn? source r with
  | none => none
  | some (.stop answer) => some answer
  | some (.go next) =>
    if r.offset < next.offset ∧ next.offset ≤ source.utf8ByteSize then scan? source next else none
termination_by source.utf8ByteSize - r.offset

def compile? (source : String) : Option (Except ParseError Template) := do
  let answer ← scan? source ⟨.start, 0⟩
  some (answer.map (Template.mk source))

/-! ## Sound readers -/

/-- The depth is that of the open blocks, and each of them starts between two characters. -/
structure Reader.Sound (source : String) (r : Reader) : Prop where
  depth_eq : r.depth = r.enclosing.length
  openers : ∀ block ∈ r.enclosing, (String.Pos.Raw.mk block.openedAt).IsValid source

theorem Reader.sound_start (source : String) : Reader.Sound source ⟨.start, 0⟩ :=
  ⟨rfl, fun _ hmem => absurd hmem List.not_mem_nil⟩

/-- What the builder comes to, as a turn. -/
def Turn.ofStep : Except ParseError Builder → Turn
  | .ok b => .go ⟨b, b.enclosing.length⟩
  | .error e => .stop (.error e)

variable {source : String} {r : Reader} {b : Builder}

theorem fail?_eq {offset : Nat} (h : (String.Pos.Raw.mk offset).IsValid source) (fault : Fault) :
    fail? source offset fault = some (.stop (.error (.locate source offset fault))) := by
  rw [fail?, position?_of_isValid h]
  rfl

theorem finish?_eq (h : ∀ block ∈ b.enclosing, (String.Pos.Raw.mk block.openedAt).IsValid source) :
    finish? source b = some (.stop (b.finish source)) := by
  rw [finish?, Builder.finish]
  cases henclosing : b.enclosing with
  | nil => rfl
  | cons block outer =>
      rw [henclosing] at h
      exact fail?_eq (h block (List.mem_cons_self ..)) _

/-- A text that is in front of the reader is added like its segment. -/
theorem exists_pushText? {cs : List Char} {stop : Nat}
    (h : Span.Reads source ⟨b.offset, stop⟩ (String.ofList cs)) :
    ∃ b', pushText? source b stop = some b' ∧
      (Segment.ofText cs).foldlM (Builder.step source) b = .ok b' ∧ b'.offset = stop ∧
      b'.enclosing = b.enclosing := by
  have hstop : stop = b.offset + byteSize cs := by
    obtain ⟨before, after, -, hstart, hstop⟩ := h
    simp only [utf8ByteSize_ofList] at hstart hstop
    omega
  cases cs with
  | nil =>
      obtain rfl : stop = b.offset := hstop
      exact ⟨b, if_neg (Nat.lt_irrefl _), rfl, rfl, rfl⟩
  | cons c cs =>
      have hc : 0 < c.utf8Size := c.utf8Size_pos
      have hsize : byteSize (c :: cs) = c.utf8Size + byteSize cs := rfl
      refine ⟨b.push (.literal (String.ofList (c :: cs)) ⟨b.offset, stop⟩) stop, ?_, ?_, rfl, rfl⟩
      · rw [pushText?, if_pos (by omega), slice?_eq_some_iff.mpr h]
        rfl
      · simp only [Segment.ofText, List.isEmpty_cons, Bool.false_eq_true, if_false,
          List.foldlM_cons, List.foldlM_nil, bind_pure]
        exact Builder.step_text (by rw [utf8ByteSize_ofList, hstop])

/-- A marker is taken in as the builder reads it. -/
theorem takeMarker?_eq {inner : String} {marker : Marker} (hsound : r.Sound source)
    (hoffset : (String.Pos.Raw.mk r.offset).IsValid source)
    (hread : Marker.read inner = .ok marker) :
    takeMarker? source r (r.offset + 2) (r.offset + 2 + inner.utf8ByteSize) inner marker =
      some (.ofStep (r.step source (.marker inner))) := by
  have hstop : r.offset + 2 + inner.utf8ByteSize + 2 = r.offset + inner.utf8ByteSize + 4 := by omega
  rw [Builder.step, hread]
  cases marker with
  | interpolation path =>
      rw [takeMarker?, hstop, hsound.depth_eq]
      rfl
  | opener kind path =>
      have hpath := Marker.utf8ByteSize_le_of_read hread
      rw [takeMarker?, hstop, hsound.depth_eq, less?_eq_some hpath]
      simp only [Builder.readMarker]
      split
      · rename_i hroom
        have hstart : r.offset + 2 + (inner.utf8ByteSize - path.utf8ByteSize) =
            r.offset + inner.utf8ByteSize + 4 - 2 - path.utf8ByteSize := by omega
        have hend : r.offset + 2 + (inner.utf8ByteSize - path.utf8ByteSize) + path.utf8ByteSize =
            r.offset + inner.utf8ByteSize + 4 - 2 := by omega
        rw [Option.bind_eq_bind, Option.bind_some, hend, hstart, next?_eq_some hroom]
        rfl
      · exact fail?_eq hoffset _
  | closer kind =>
      rw [takeMarker?, hstop, hsound.depth_eq]
      simp only [Builder.readMarker]
      cases henclosing : r.enclosing with
      | nil => exact fail?_eq hoffset _
      | cons block outer =>
          have hblock := hsound.openers block (by simp [henclosing])
          simp only
          split
          · rfl
          · rw [position?_of_isValid hblock]
            exact fail?_eq hoffset _

/-- The builder stays sound from marker to marker. -/
theorem Reader.Sound.step {inner : String} {b' : Builder} (h : r.Sound source)
    (hoffset : (String.Pos.Raw.mk r.offset).IsValid source)
    (hstep : r.step source (.marker inner) = .ok b') :
    Reader.Sound source ⟨b', b'.enclosing.length⟩ ∧
      b'.offset = r.offset + inner.utf8ByteSize + 4 := by
  cases Builder.step_eq_ok_iff.mp hstep with
  | interpolation _ hstop => exact ⟨⟨rfl, h.openers⟩, hstop⟩
  | opener _ hstop _ => exact ⟨⟨rfl, List.forall_mem_cons.mpr ⟨hoffset, h.openers⟩⟩, hstop⟩
  | closer _ hstop henclosing =>
      have hopeners := h.openers
      rw [henclosing] at hopeners
      exact ⟨⟨rfl, (List.forall_mem_cons.mp hopeners).2⟩, hstop⟩

/-! ## Turns -/

section

variable {cs before opened inner rest : List Char}

theorem findPair?_ofList (mark : Char) (cs : List Char) :
    findPair? mark (String.ofList cs) = (cutAtPair mark cs).map fun cut => byteSize cut.1 := by
  rw [findPair?, String.toList_ofList]

theorem close?_of_none (hoffset : (String.Pos.Raw.mk r.offset).IsValid source)
    (hopened : Span.Reads source ⟨r.offset + 2, source.utf8ByteSize⟩ (String.ofList opened))
    (hclose : cutAtPair '}' opened = none) :
    close? source r = some (.ofStep (r.step source .unterminated)) := by
  rw [close?, slice?_eq_some_iff.mpr hopened, Option.bind_eq_bind, Option.bind_some,
    findPair?_ofList, hclose]
  exact fail?_eq hoffset _

theorem close?_of_some (hsound : r.Sound source)
    (hoffset : (String.Pos.Raw.mk r.offset).IsValid source)
    (hopened : Span.Reads source ⟨r.offset + 2, source.utf8ByteSize⟩ (String.ofList opened))
    (hclose : cutAtPair '}' opened = some (inner, rest)) :
    close? source r = some (.ofStep (r.step source (.marker (String.ofList inner)))) := by
  obtain ⟨hinner, -⟩ := reads_around_pair rfl (eq_of_cutAtPair hclose ▸ hopened)
  rw [close?, slice?_eq_some_iff.mpr hopened, Option.bind_eq_bind, Option.bind_some,
    findPair?_ofList, hclose, Option.map_some]
  simp only [slice?_eq_some_iff.mpr hinner, Option.bind_some]
  cases hread : Marker.read (String.ofList inner) with
  | error fault =>
      rw [Builder.step, hread]
      exact fail?_eq hoffset _
  | ok marker =>
      rw [← utf8ByteSize_ofList]
      exact takeMarker?_eq hsound hoffset hread

/-- Up to the next marker a turn adds the text before it. -/
theorem exists_turn?_of_some (hsound : r.Sound source)
    (hreads : Span.Reads source ⟨r.offset, source.utf8ByteSize⟩ (String.ofList cs))
    (hopen : cutAtPair '{' cs = some (before, opened)) :
    ∃ r' : Reader, turn? source r = close? source r' ∧
      (Segment.ofText before).foldlM (Builder.step source) r.toBuilder = .ok r'.toBuilder ∧
      r'.Sound source ∧ r.offset ≤ r'.offset ∧ (String.Pos.Raw.mk r'.offset).IsValid source ∧
      Span.Reads source ⟨r'.offset + 2, source.utf8ByteSize⟩ (String.ofList opened) := by
  obtain ⟨hbefore, hopened⟩ := reads_around_pair rfl (eq_of_cutAtPair hopen ▸ hreads)
  obtain ⟨b, hpush, hfold, hoffset, henclosing⟩ := exists_pushText? hbefore
  refine ⟨⟨b, r.depth⟩, ?_, hfold, ⟨?_, ?_⟩, ?_, ?_, ?_⟩
  · rw [turn?, slice?_eq_some_iff.mpr hreads, Option.bind_eq_bind, Option.bind_some,
      findPair?_ofList, hopen, Option.map_some]
    simp only [hpush, Option.bind_eq_bind, Option.bind_some]
  · exact hsound.depth_eq.trans (congrArg List.length henclosing.symm)
  · exact henclosing ▸ hsound.openers
  · exact hoffset ▸ Nat.le_add_right _ _
  · exact hoffset ▸ hbefore.onBoundaries.2
  · exact hoffset ▸ hopened

end

/-- From a sound reader the scan comes to what the builder comes to on the segments in front of
it. -/
theorem scan?_eq (cs : List Char) : ∀ r : Reader, r.Sound source →
    Span.Reads source ⟨r.offset, source.utf8ByteSize⟩ (String.ofList cs) →
    scan? source r = some ((Segment.ofChars cs).foldlM (Builder.step source) r.toBuilder >>=
      Builder.finish source) := by
  -- A turn finds no marker, one that is never closed, or one that is; only then does it go on.
  induction cs using Segment.cut_induction with
  | text cs hopen =>
      intro r hsound hreads
      obtain ⟨b, hpush, hfold, hoffset, henclosing⟩ := exists_pushText? hreads
      have hturn : turn? source r = some (.stop (b.finish source)) := by
        rw [turn?, slice?_eq_some_iff.mpr hreads, Option.bind_eq_bind, Option.bind_some,
          findPair?_ofList, hopen]
        simp only [Option.map_none, hpush, Option.bind_eq_bind, Option.bind_some]
        exact finish?_eq (henclosing ▸ hsound.openers)
      rw [scan?, hturn, Segment.ofChars_of_none hopen, hfold]
      rfl
  | unterminated cs before opened hopen hclose =>
      intro r hsound hreads
      obtain ⟨r', hturn, hfold, -, -, hoffset, hopened⟩ := exists_turn?_of_some hsound hreads hopen
      rw [close?_of_none hoffset hopened hclose] at hturn
      rw [scan?, hturn, Segment.ofChars_of_some hopen, Segment.ofOpened_of_none hclose,
        List.foldlM_append, hfold]
      rfl
  | marker cs before opened inner rest hopen hclose ih =>
      intro r hsound hreads
      obtain ⟨r', hturn, hfold, hsound', hle, hoffset, hopened⟩ :=
        exists_turn?_of_some hsound hreads hopen
      rw [close?_of_some hsound' hoffset hopened hclose] at hturn
      have hsegments : (Segment.ofChars cs).foldlM (Builder.step source) r.toBuilder =
          r'.step source (.marker (String.ofList inner)) >>= fun b =>
            (Segment.ofChars rest).foldlM (Builder.step source) b := by
        rw [Segment.ofChars_of_some hopen, Segment.ofOpened_of_some hclose, List.foldlM_append,
          hfold]
        rfl
      rw [scan?, hturn, hsegments]
      cases hstep : r'.step source (.marker (String.ofList inner)) with
      | error e => rfl
      | ok b =>
          obtain ⟨hnext, hstop⟩ := hsound'.step hoffset hstep
          obtain ⟨-, hafter⟩ := reads_around_pair rfl (eq_of_cutAtPair hclose ▸ hopened)
          have hrest : Span.Reads source ⟨b.offset, source.utf8ByteSize⟩ (String.ofList rest) := by
            have hoffset' : r'.offset + 2 + byteSize inner + 2 = b.offset := by
              rw [hstop, utf8ByteSize_ofList]
              omega
            exact hoffset' ▸ hafter
          have hfurther : r.offset < b.offset ∧ b.offset ≤ source.utf8ByteSize :=
            ⟨by omega, hrest.onBoundaries.1.le_rawEndPos⟩
          exact (if_pos hfurther).trans (ih ⟨b, _⟩ hnext hrest)

theorem compile?_eq (source : String) : compile? source = some (Template.compile source) := by
  rw [compile?, scan?_eq source.toList _ (Reader.sound_start source) (reads_source source)]
  rfl

end Stencil.Checked
