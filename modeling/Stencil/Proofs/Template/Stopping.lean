import Stencil.Proofs.Template.OpenBlocks
import Stencil.Proofs.Template.Recut
import Stencil.Proofs.Text.Position

/-!
# Where reading stops

A source that does not compile has a first segment that the builder does not accept, or it ends
inside a block. What was read before that is well cut, so it is read in the same way in every source
that begins with it (`Template.compile_of_read`); and the segment is refused for what it says and
for where it stands, not for what comes after it (`Builder.step_congr`). So the fault that is
reported is the first one in the source, and no later text can undo it (`Template.compile_error`).
-/

namespace Stencil

/-! ## What a step depends on -/

/-- Whether the fault lies in a marker that is read to its end: in what it says or where it
stands. -/
def Fault.IsOfMarker (fault : Fault) : Prop :=
  fault ≠ .unterminated ∧ ∀ kind, fault ≠ .unclosed kind

theorem Marker.isOfMarker_of_read {inner : String} {fault : Fault}
    (h : Marker.read inner = .error fault) : fault.IsOfMarker := by
  rw [Marker.read] at h
  split at h
  · rw [Marker.readOpener] at h
    simp only at h
    split at h
    · cases h
      simp [Fault.IsOfMarker]
    · split at h
      · cases h
        simp [Fault.IsOfMarker]
      · split at h
        · cases h
        · cases h
          simp [Fault.IsOfMarker]
  · rw [Marker.readCloser] at h
    split at h
    · cases h
      simp [Fault.IsOfMarker]
    · cases h
  · split at h
    · cases h
    · cases h
      simp [Fault.IsOfMarker]

namespace Builder

variable {source source' : String} {b b' : Builder} {segment : Segment} {e : ParseError}

/-- The source is only looked at to locate a fault. -/
theorem step_congr
    (hlocate : ∀ offset ≤ b.offset, Position.locate source' offset = Position.locate source offset)
    (hopened : ∀ block ∈ b.enclosing, block.openedAt ≤ b.offset) (segment : Segment) :
    step source' b segment = step source b segment := by
  have hhere := hlocate b.offset (Nat.le_refl _)
  cases segment with
  | text content => rfl
  | unterminated => rw [step, step, ParseError.locate, ParseError.locate, hhere]
  | marker inner =>
      rw [step, step]
      cases Marker.read inner with
      | error fault => simp only [ParseError.locate, hhere]
      | ok marker =>
          cases marker with
          | interpolation path => rfl
          | opener kind path => simp only [readMarker, ParseError.locate, hhere]
          | closer kind =>
              cases henclosing : b.enclosing with
              | nil => simp only [readMarker, henclosing, ParseError.locate, hhere]
              | cons block outer =>
                  have hblock := hlocate block.openedAt
                    (hopened block (henclosing ▸ List.mem_cons_self ..))
                  simp only [readMarker, henclosing, ParseError.locate, hhere, hblock]

theorem foldlM_step_eq_ok_of_eq_ok {segments : List Segment} :
    ∀ {b : Builder}, segments.foldlM (step source) b = .ok b' → ∀ source',
      segments.foldlM (step source') b = .ok b' := by
  induction segments with
  | nil => exact fun h _ => h
  | cons segment rest ih =>
      intro b h source'
      rw [List.foldlM_cons] at h ⊢
      cases hstep : step source b segment with
      | error e =>
          rw [hstep] at h
          cases h
      | ok next =>
          rw [hstep] at h
          rw [step_eq_ok_iff.mpr (step_eq_ok_iff.mp hstep)]
          exact ih h source'

theorem foldlM_step_concat {start : Builder} {read : List Segment}
    (hread : read.foldlM (step source) start = .ok b) (hstep : step source b segment = .ok b') :
    (read ++ [segment]).foldlM (step source) start = .ok b' := by
  have hlast : [segment].foldlM (step source) b = .ok b' := by
    rw [List.foldlM_cons, hstep]
    rfl
  rw [List.foldlM_append, hread]
  exact hlast

theorem readMarker_eq_error {stop : Nat} {marker : Marker}
    (h : readMarker source b stop marker = .error e) :
    ∃ fault : Fault, e = .locate source b.offset fault ∧ fault.IsOfMarker := by
  cases marker with
  | interpolation path => cases h
  | opener kind path =>
      simp only [readMarker] at h
      split at h
      · cases h
      · cases h
        exact ⟨_, rfl, by simp [Fault.IsOfMarker]⟩
  | closer kind =>
      simp only [readMarker] at h
      split at h
      · cases h
        exact ⟨_, rfl, by simp [Fault.IsOfMarker]⟩
      · split at h
        · cases h
        · cases h
          exact ⟨_, rfl, by simp [Fault.IsOfMarker]⟩

/-- A segment that is refused is at fault where it stands, and only a marker that is never closed
is unterminated. -/
theorem step_eq_error (h : step source b segment = .error e) :
    e = .locate source b.offset e.fault ∧
      (e.fault = .unterminated ∧ segment = .unterminated ∨
        e.fault.IsOfMarker ∧ ∃ inner, segment = .marker inner) := by
  cases segment with
  | text content => cases h
  | unterminated =>
      cases h
      exact ⟨rfl, .inl ⟨rfl, rfl⟩⟩
  | marker inner =>
      rw [step] at h
      cases hread : Marker.read inner with
      | error fault =>
          rw [hread] at h
          cases h
          exact ⟨rfl, .inr ⟨Marker.isOfMarker_of_read hread, inner, rfl⟩⟩
      | ok marker =>
          rw [hread] at h
          obtain ⟨fault, rfl, hfault⟩ := readMarker_eq_error h
          exact ⟨rfl, .inr ⟨hfault, inner, rfl⟩⟩

end Builder

/-! ## The first fault -/

/-- A run that fails gets through some of the list and fails at what comes next. -/
theorem exists_of_foldlM_eq_error {α β ε : Type} {f : β → α → Except ε β} {e : ε} :
    ∀ {l : List α} {b : β}, l.foldlM f b = .error e →
      ∃ read x rest b', l = read ++ x :: rest ∧ read.foldlM f b = .ok b' ∧ f b' x = .error e
  | [], _, h => by cases h
  | x :: rest, b, h => by
      rw [List.foldlM_cons] at h
      cases hx : f b x with
      | error e' =>
          rw [hx] at h
          cases h
          exact ⟨[], x, rest, b, rfl, rfl, hx⟩
      | ok next =>
          rw [hx] at h
          obtain ⟨read, x', rest', b', rfl, hread, hx'⟩ := exists_of_foldlM_eq_error h
          refine ⟨x :: read, x', rest', b', rfl, ?_, hx'⟩
          rw [List.foldlM_cons, hx]
          exact hread

theorem holds_of_foldlM {source : String} {b : Builder} {read : List Segment}
    (h : read.foldlM (Builder.step source) .start = .ok b) : Holds b read := by
  simpa using Holds.foldlM (.top (.nil 0)) h

namespace Template

variable {source source' : String} {b : Builder} {read rest : List Segment} {segment : Segment}
  {inner : String} {e : ParseError}

/-- Nothing is wrong with the source but that the given blocks are open at its end: the innermost
one is reported. -/
def Leaves (source : String) : List (BlockKind × Nat) → Prop
  | [] => ∃ t, compile source = .ok t
  | (kind, openedAt) :: _ => compile source = .error (.locate source openedAt (.unclosed kind))

theorem compile_of_read (hread : read.foldlM (Builder.step source') .start = .ok b)
    (hsource : Segment.ofSource source = read) :
    compile source = match b.enclosing with
      | [] => .ok ⟨source, b.siblings.reverse⟩
      | block :: _ => .error (.locate source block.openedAt (.unclosed block.kind)) := by
  rw [compile, Node.parse, hsource, Builder.foldlM_step_eq_ok_of_eq_ok hread source]
  simp only [Bind.bind, Except.bind, Builder.finish]
  cases b.enclosing <;> rfl

/-- Segments that have been read in one source are read in the same way in another. -/
theorem leaves_of_read (hread : read.foldlM (Builder.step source') .start = .ok b)
    (hsource : Segment.ofSource source = read) :
    Leaves source (b.enclosing.map fun block => (block.kind, block.openedAt)) := by
  have hcompile := compile_of_read hread hsource
  cases henclosing : b.enclosing with
  | nil =>
      rw [henclosing] at hcompile
      exact ⟨_, hcompile⟩
  | cons block outer =>
      rw [henclosing] at hcompile
      exact hcompile

/-- A source does not compile because of one of its segments or because a block is open at its
end. -/
theorem stop_of_compile_eq_error (h : compile source = .error e) :
    (∃ read segment rest b, Segment.ofSource source = read ++ segment :: rest ∧
      read.foldlM (Builder.step source) .start = .ok b ∧
      Builder.step source b segment = .error e) ∨
    ∃ b block outer, (Segment.ofSource source).foldlM (Builder.step source) .start = .ok b ∧
      b.enclosing = block :: outer ∧
      e = .locate source block.openedAt (.unclosed block.kind) := by
  cases hfold : (Segment.ofSource source).foldlM (Builder.step source) .start with
  | error e' =>
      rw [compile, Node.parse, hfold] at h
      cases h
      exact .inl (exists_of_foldlM_eq_error hfold)
  | ok b =>
      rw [compile_of_read hfold rfl] at h
      split at h
      · cases h
      · rename_i block outer henclosing
        cases h
        exact .inr ⟨b, block, outer, rfl, henclosing, rfl⟩

/-- What is read of a source is by itself a source that is read to its end. -/
theorem leaves_of_refused (hsource : Segment.ofSource source = read ++ segment :: rest)
    (hread : read.foldlM (Builder.step source) .start = .ok b) :
    Leaves (Segment.spellingAll read)
      (b.enclosing.map fun block => (block.kind, block.openedAt)) := by
  have hcut := Segment.wellCut_ofChars source.toList
  rw [← Segment.ofSource, hsource] at hcut
  exact leaves_of_read hread (Segment.ofChars_spellingAll
    (hcut.part (List.prefix_append ..).isInfix) (holds_of_foldlM hread).not_mem_unterminated)

/-- A marker that is refused is refused whatever follows it. -/
theorem compile_of_refused_marker
    (hsource : Segment.ofSource source = read ++ .marker inner :: rest)
    (hread : read.foldlM (Builder.step source) .start = .ok b)
    (hstep : Builder.step source b (.marker inner) = .error e) {after : String}
    (hafter : source = Segment.spellingAll read ++ after) (tail : String) :
    compile (Segment.spellingAll read ++ (markerText inner ++ tail)) = .error e := by
  have hholds := holds_of_foldlM hread
  have hcut := Segment.wellCut_ofChars source.toList
  rw [← Segment.ofSource, hsource, List.append_cons] at hcut
  have hsource' : Segment.ofSource (Segment.spellingAll read ++ (markerText inner ++ tail)) =
      read ++ .marker inner :: Segment.ofChars tail.toList := by
    rw [← Segment.ofChars_append_of_marker (hcut.part (List.prefix_append ..).isInfix)
      hholds.not_mem_unterminated tail.toList]
    simp [Segment.ofSource, Segment.spelling]
  have hlocate : ∀ offset ≤ b.offset,
      Position.locate (Segment.spellingAll read ++ (markerText inner ++ tail)) offset =
        Position.locate source offset := by
    intro offset hle
    rw [hholds.offset_eq] at hle
    rw [hafter, Position.locate_append hle, Position.locate_append hle]
  rw [compile, Node.parse, hsource', List.foldlM_append,
    Builder.foldlM_step_eq_ok_of_eq_ok hread _]
  simp only [Bind.bind, Except.bind]
  rw [List.foldlM_cons, Builder.step_congr hlocate hholds.openedAt_le, hstep]
  rfl

/-- The closer of the innermost open block closes that block and no other. -/
theorem leaves_append_closerText {block : OpenBlock} {outer : List OpenBlock}
    (hread : (Segment.ofSource source).foldlM (Builder.step source) .start = .ok b)
    (henclosing : b.enclosing = block :: outer) (hlast : source.toList.getLast? ≠ some '{') :
    Leaves (source ++ block.kind.closerText)
      (outer.map fun block => (block.kind, block.openedAt)) := by
  have hholds := holds_of_foldlM hread
  have hsource : Segment.ofSource (source ++ block.kind.closerText) =
      Segment.ofSource source ++ [.marker ("/" ++ block.kind.keyword)] := by
    rw [Segment.ofSource, String.toList_append, Segment.ofChars_append hholds.not_mem_unterminated
      fun hseam => hlast hseam.1, Segment.ofChars_closerText, Segment.glue_marker]
    rfl
  have hstep : Builder.step source b (.marker ("/" ++ block.kind.keyword)) = .ok _ :=
    Builder.step_closer block.kind.read_closerInner henclosing rfl
  exact leaves_of_read (Builder.foldlM_step_concat hread hstep) hsource

end Template

/-- What the error of a source says, where the source reads two braces after `before` and then
`after`. -/
structure ParseError.Describes (source before after : String) (e : ParseError) : Prop where
  /-- The error is at the braces, and its message says in which line and column they are. -/
  located : e = .locate source before.utf8ByteSize e.fault ∧
    e.message = "line " ++ toString (Position.locate source before.utf8ByteSize).line ++
      ", column " ++ toString (Position.locate source before.utf8ByteSize).column ++ ": " ++
        e.fault.message
  /-- Before them nothing is wrong but that blocks are open. -/
  first : (∀ kind, e.fault ≠ .unclosed kind) → ∃ opened, Template.Leaves before opened
  /-- A marker at fault ends at the first closing pair, and no text after it changes the error. -/
  final : (∀ kind, e.fault ≠ .unclosed kind) → e.fault ≠ .unterminated →
    ∃ inner rest, after = inner ++ "\x7d\x7d" ++ rest ∧
      ¬['}', '}'] <:+: inner.toList ++ ['}'] ∧
      ∀ rest', Template.compile (before ++ "\x7b\x7b" ++ inner ++ "\x7d\x7d" ++ rest') = .error e
  unterminated : e.fault = .unterminated → ¬['}', '}'] <:+: after.toList
  /-- An unclosed block is the innermost one that is open, and its closer closes it: then what is
  reported is the next open block around it, if there is one. -/
  unclosed : ∀ kind, e.fault = .unclosed kind →
    ∃ outer, openBlocks source = (kind, before.utf8ByteSize) :: outer ∧
      (source.toList.getLast? ≠ some '{' → Template.Leaves (source ++ kind.closerText) outer)

namespace ParseError.Describes

variable {source inner : String} {e : ParseError} {b : Builder} {read rest : List Segment}

theorem message_of_eq_locate {offset : Nat} {fault : Fault} (h : e = .locate source offset fault) :
    e.message = "line " ++ toString (Position.locate source offset).line ++ ", column " ++
      toString (Position.locate source offset).column ++ ": " ++ fault.message := by
  subst h
  rfl

theorem of_refused_marker (hsource : Segment.ofSource source = read ++ .marker inner :: rest)
    (hread : read.foldlM (Builder.step source) .start = .ok b)
    (hstep : Builder.step source b (.marker inner) = .error e) :
    ∃ before after, source = before ++ "\x7b\x7b" ++ after ∧ e.Describes source before after := by
  have hholds := holds_of_foldlM hread
  obtain ⟨hlocated, hcause⟩ := Builder.step_eq_error hstep
  obtain ⟨hterminated, hclosed⟩ : e.fault.IsOfMarker := by
    rcases hcause with ⟨-, hsegment⟩ | ⟨hfault, -⟩
    · cases hsegment
    · exact hfault
  obtain ⟨tail, hchars, htail⟩ :=
    Segment.exists_rest_of_ofChars hsource hholds.not_mem_unterminated
  obtain ⟨tail', rfl, -⟩ := Segment.exists_rest_of_ofChars_cons htail (by simp)
  have hsplit : source = Segment.spellingAll read ++ (markerText inner ++ String.ofList tail') :=
    String.toList_injective (by simpa [Segment.spelling] using hchars)
  have hcut := Segment.wellCut_ofChars source.toList
  rw [← Segment.ofSource, hsource] at hcut
  have hsound : ¬['}', '}'] <:+: inner.toList ++ ['}'] := hcut.sound (.marker inner) (by simp)
  rw [hholds.offset_eq] at hlocated
  refine ⟨Segment.spellingAll read, inner ++ "\x7d\x7d" ++ String.ofList tail', ?_, ?_⟩
  · rw [hsplit]
    simp only [markerText, String.append_assoc]
  · refine ⟨⟨hlocated, message_of_eq_locate hlocated⟩,
      fun _ => ⟨_, Template.leaves_of_refused hsource hread⟩,
      fun _ _ => ⟨inner, String.ofList tail', rfl, hsound, fun rest' => ?_⟩,
      fun h => absurd h hterminated, fun kind h => absurd h (hclosed kind)⟩
    have h := Template.compile_of_refused_marker hsource hread hstep hsplit rest'
    simpa only [markerText, String.append_assoc] using h

theorem of_refused_unterminated (hsource : Segment.ofSource source = read ++ .unterminated :: rest)
    (hread : read.foldlM (Builder.step source) .start = .ok b)
    (hstep : Builder.step source b .unterminated = .error e) :
    ∃ before after, source = before ++ "\x7b\x7b" ++ after ∧ e.Describes source before after := by
  have hholds := holds_of_foldlM hread
  obtain ⟨hlocated, hcause⟩ := Builder.step_eq_error hstep
  have hfault : e.fault = .unterminated := by
    rcases hcause with ⟨hfault, -⟩ | ⟨-, inner, hsegment⟩
    · exact hfault
    · cases hsegment
  obtain ⟨tail, hchars, htail⟩ :=
    Segment.exists_rest_of_ofChars hsource hholds.not_mem_unterminated
  obtain ⟨opened, rfl, hopened⟩ := Segment.exists_opened_of_ofChars htail
  rw [hholds.offset_eq] at hlocated
  refine ⟨Segment.spellingAll read, String.ofList opened,
    String.toList_injective (by simpa using hchars),
    ⟨hlocated, message_of_eq_locate hlocated⟩,
    fun _ => ⟨_, Template.leaves_of_refused hsource hread⟩, fun _ h => absurd hfault h,
    fun _ => by rwa [String.toList_ofList], fun kind h => ?_⟩
  rw [hfault] at h
  cases h

theorem of_open {block : OpenBlock} {outer : List OpenBlock}
    (hread : (Segment.ofSource source).foldlM (Builder.step source) .start = .ok b)
    (henclosing : b.enclosing = block :: outer) :
    ∃ before after, source = before ++ "\x7b\x7b" ++ after ∧
      (ParseError.locate source block.openedAt (.unclosed block.kind)).Describes
        source before after := by
  have hholds := holds_of_foldlM hread
  obtain ⟨before, inner, body, hsegments, hopenedAt⟩ := hholds.exists_opener henclosing
  have hsource := spellingAll_ofSource hholds.not_mem_unterminated
  rw [hsegments] at hsource
  have hopened : openBlocks source =
      (b.enclosing.map fun block => (block.kind, block.openedAt)) := hholds.trackAll_eq
  rw [henclosing, List.map_cons, hopenedAt] at hopened
  refine ⟨Segment.spellingAll before, inner ++ "\x7d\x7d" ++ Segment.spellingAll body, ?_, ?_⟩
  · rw [← hsource]
    simp [Segment.spelling, markerText, String.append_assoc]
  · rw [hopenedAt]
    refine ⟨⟨rfl, message_of_eq_locate rfl⟩, fun h => absurd rfl (h block.kind),
      fun h => absurd rfl (h block.kind), by rintro ⟨⟩, fun kind h => ?_⟩
    cases h
    exact ⟨_, hopened, Template.leaves_append_closerText hread henclosing⟩

end ParseError.Describes

/-- The error of a source that does not compile is that of its first structural fault, and it
points at a marker. -/
theorem Template.compile_error {source : String} {e : ParseError} (h : compile source = .error e) :
    ∃ before after, source = before ++ "\x7b\x7b" ++ after ∧ e.Describes source before after := by
  rcases stop_of_compile_eq_error h with
    ⟨read, segment, rest, b, hsource, hread, hstep⟩ | ⟨b, block, outer, hread, henclosing, rfl⟩
  · obtain ⟨-, ⟨-, rfl⟩ | ⟨-, inner, rfl⟩⟩ := Builder.step_eq_error hstep
    · exact ParseError.Describes.of_refused_unterminated hsource hread hstep
    · exact ParseError.Describes.of_refused_marker hsource hread hstep
  · exact ParseError.Describes.of_open hread henclosing

/-- A closer of the wrong kind on the second line, and the same source cut off before it. -/
theorem Template.compile_error_crossed :
    (∃ e before after, compile
        "é\n\x7b\x7b#if x\x7d\x7d\x7b\x7b#each y\x7d\x7d\x7b\x7b/if\x7d\x7d..." = .error e ∧
      e.fault = .crossed .conditional .iteration ⟨2, 10⟩ ∧ e.position = ⟨2, 21⟩ ∧
      e.Describes "é\n\x7b\x7b#if x\x7d\x7d\x7b\x7b#each y\x7d\x7d\x7b\x7b/if\x7d\x7d..."
        before after) ∧
    ∃ e before after, compile "é\n\x7b\x7b#if x\x7d\x7d\x7b\x7b#each y\x7d\x7d" = .error e ∧
      e.fault = .unclosed .iteration ∧ e.position = ⟨2, 10⟩ ∧
      e.Describes "é\n\x7b\x7b#if x\x7d\x7d\x7b\x7b#each y\x7d\x7d" before after := by
  refine ⟨?_, ?_⟩
  · have hcompile : compile
        "é\n\x7b\x7b#if x\x7d\x7d\x7b\x7b#each y\x7d\x7d\x7b\x7b/if\x7d\x7d..." =
        .error ⟨23, ⟨2, 21⟩, .crossed .conditional .iteration ⟨2, 10⟩⟩ := by
      cbv
    obtain ⟨before, after, -, hdescribes⟩ := compile_error hcompile
    exact ⟨_, before, after, hcompile, rfl, rfl, hdescribes⟩
  · have hcompile : compile "é\n\x7b\x7b#if x\x7d\x7d\x7b\x7b#each y\x7d\x7d" =
        .error ⟨12, ⟨2, 10⟩, .unclosed .iteration⟩ := by
      cbv
    obtain ⟨before, after, -, hdescribes⟩ := compile_error hcompile
    exact ⟨_, before, after, hcompile, rfl, rfl, hdescribes⟩

end Stencil
