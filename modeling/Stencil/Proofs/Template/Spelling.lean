import Stencil.Template.Tree
import Stencil.Proofs.Template.Cut
import Stencil.Proofs.Template.Forest
import Stencil.Proofs.Template.Marker

/-!
# Segments that spell a forest

`Spells start segments nodes stop` says that the segments, read from the byte `start` on, are
those of the forest and end at `stop`: a recursive description without a stack and without an
order of steps. The builder does exactly that. From any state it reads the segments of a forest
into the nodes, or fails at the first opener that is too deep (`Spells.foldlM_step`); and
whatever it has read without a fault are segments of such forests, one for each open block
(`Holds`). Together they determine parsing: `Node.parse_eq_ok_iff`.
-/

namespace Stencil

inductive Spells : Nat → List Segment → List Node → Nat → Prop
  | nil (start : Nat) : Spells start [] [] start
  | text {start mid stop : Nat} {content : String} {segments : List Segment} {nodes : List Node}
      (hmid : mid = start + content.utf8ByteSize) (hrest : Spells mid segments nodes stop) :
      Spells start (.text content :: segments) (.literal content ⟨start, mid⟩ :: nodes) stop
  | interpolation {start mid stop : Nat} {inner path : String} {segments : List Segment}
      {nodes : List Node} (hread : Marker.read inner = .ok (.interpolation path))
      (hmid : mid = start + inner.utf8ByteSize + 4) (hrest : Spells mid segments nodes stop) :
      Spells start (.marker inner :: segments) (.interpolation path ⟨start, mid⟩ :: nodes) stop
  | block {start bodyStart bodyStop mid stop : Nat} {inner inner' : String} {kind : BlockKind}
      {path : String} {bodySegments segments : List Segment} {body nodes : List Node}
      (hopen : Marker.read inner = .ok (.opener kind path))
      (hstart : bodyStart = start + inner.utf8ByteSize + 4)
      (hbody : Spells bodyStart bodySegments body bodyStop)
      (hclose : Marker.read inner' = .ok (.closer kind))
      (hmid : mid = bodyStop + inner'.utf8ByteSize + 4) (hrest : Spells mid segments nodes stop) :
      Spells start (.marker inner :: (bodySegments ++ .marker inner' :: segments))
        (.block kind ⟨path, ⟨bodyStart - 2 - path.utf8ByteSize, bodyStart - 2⟩⟩ body ⟨start, mid⟩
          :: nodes) stop

/-! ## Forests are read as they are spelled -/

namespace Builder

variable {source : String} {b : Builder} {mid : Nat} {inner path content : String}
  {kind : BlockKind}

theorem step_text (hmid : mid = b.offset + content.utf8ByteSize) :
    step source b (.text content) =
      .ok ⟨mid, .literal content ⟨b.offset, mid⟩ :: b.siblings, b.enclosing⟩ := by
  subst hmid
  rfl

theorem step_interpolation (hread : Marker.read inner = .ok (.interpolation path))
    (hmid : mid = b.offset + inner.utf8ByteSize + 4) :
    step source b (.marker inner) =
      .ok ⟨mid, .interpolation path ⟨b.offset, mid⟩ :: b.siblings, b.enclosing⟩ := by
  subst hmid
  rw [step, hread]
  rfl

theorem step_opener (hread : Marker.read inner = .ok (.opener kind path))
    (hmid : mid = b.offset + inner.utf8ByteSize + 4) :
    step source b (.marker inner) =
      if b.enclosing.length < maxNesting then
        .ok ⟨mid, [],
          ⟨kind, ⟨path, ⟨mid - 2 - path.utf8ByteSize, mid - 2⟩⟩, b.offset, b.siblings⟩ ::
            b.enclosing⟩
      else .error (.locate source b.offset (.tooDeep maxNesting)) := by
  subst hmid
  rw [step, hread]
  rfl

theorem step_closer {block : OpenBlock} {outer : List OpenBlock}
    (hread : Marker.read inner = .ok (.closer block.kind))
    (henclosing : b.enclosing = block :: outer)
    (hmid : mid = b.offset + inner.utf8ByteSize + 4) :
    step source b (.marker inner) =
      .ok ⟨mid, .block block.kind block.subject b.siblings.reverse ⟨block.openedAt, mid⟩ ::
        block.before, outer⟩ := by
  subst hmid
  rw [step, hread]
  simp [readMarker, henclosing]

end Builder

/-- The builder reads the segments of a forest from any state, as far as it allows blocks to be
nested. -/
theorem Spells.foldlM_step {start stop : Nat} {segments : List Segment} {nodes : List Node}
    (h : Spells start segments nodes stop) (source : String) :
    ∀ b : Builder, b.offset = start → segments.foldlM (Builder.step source) b =
      match Node.tooDeepAtAll? (maxNesting - b.enclosing.length) nodes with
      | none => .ok ⟨stop, nodes.reverse ++ b.siblings, b.enclosing⟩
      | some offset => .error (.locate source offset (.tooDeep maxNesting)) := by
  induction h with
  | nil start =>
      rintro b rfl
      rfl
  | text hmid hrest ih =>
      rintro b rfl
      rw [List.foldlM_cons, Builder.step_text hmid]
      refine (ih _ rfl).trans ?_
      simp [Node.tooDeepAtAll?, Node.tooDeepAt?]
  | interpolation hread hmid hrest ih =>
      rintro b rfl
      rw [List.foldlM_cons, Builder.step_interpolation hread hmid]
      refine (ih _ rfl).trans ?_
      simp [Node.tooDeepAtAll?, Node.tooDeepAt?]
  | @block start bodyStart bodyStop mid stop inner inner' kind path bodySegments segments body nodes
      hopen hstart hbody hclose hmid hrest ihbody ih =>
      rintro b rfl
      rw [List.foldlM_cons, Builder.step_opener hopen hstart]
      cases hroom : maxNesting - b.enclosing.length with
      | zero =>
          have hdeep : ¬b.enclosing.length < maxNesting := by omega
          rw [if_neg hdeep]
          rfl
      | succ room =>
          have hdeep : b.enclosing.length < maxNesting := by omega
          have hroom' : maxNesting - (b.enclosing.length + 1) = room := by omega
          rw [if_pos hdeep, Node.tooDeepAtAll?, Node.tooDeepAt?]
          show (bodySegments ++ .marker inner' :: segments).foldlM (Builder.step source) _ = _
          -- The body is read with its own block among the enclosing ones, so with less room.
          rw [List.foldlM_append, ihbody _ rfl, List.length_cons, hroom']
          cases Node.tooDeepAtAll? room body with
          | some offset => rfl
          | none =>
              show (Segment.marker inner' :: segments).foldlM (Builder.step source) _ = _
              rw [List.foldlM_cons, Builder.step_closer hclose rfl hmid]
              refine (ih _ rfl).trans ?_
              simp [hroom]

/-! ## What the builder has read -/

/-- The segments that the builder accepts in a state, and the state that each leads to. The source
has no part in this. -/
inductive Builder.Accepts (b : Builder) : Segment → Builder → Prop
  | text {content : String} {stop : Nat} (hstop : stop = b.offset + content.utf8ByteSize) :
      Accepts b (.text content) (b.push (.literal content ⟨b.offset, stop⟩) stop)
  | interpolation {inner path : String} {stop : Nat}
      (hread : Marker.read inner = .ok (.interpolation path))
      (hstop : stop = b.offset + inner.utf8ByteSize + 4) :
      Accepts b (.marker inner) (b.push (.interpolation path ⟨b.offset, stop⟩) stop)
  | opener {inner path : String} {kind : BlockKind} {stop : Nat}
      (hread : Marker.read inner = .ok (.opener kind path))
      (hstop : stop = b.offset + inner.utf8ByteSize + 4)
      (hroom : b.enclosing.length < maxNesting) :
      Accepts b (.marker inner) ⟨stop, [],
        ⟨kind, ⟨path, ⟨stop - 2 - path.utf8ByteSize, stop - 2⟩⟩, b.offset, b.siblings⟩ ::
          b.enclosing⟩
  | closer {inner : String} {block : OpenBlock} {outer : List OpenBlock} {stop : Nat}
      (hread : Marker.read inner = .ok (.closer block.kind))
      (hstop : stop = b.offset + inner.utf8ByteSize + 4)
      (henclosing : b.enclosing = block :: outer) :
      Accepts b (.marker inner) ⟨stop, .block block.kind block.subject b.siblings.reverse
        ⟨block.openedAt, stop⟩ :: block.before, outer⟩

theorem Builder.step_eq_ok_iff {source : String} {b b' : Builder} {segment : Segment} :
    step source b segment = .ok b' ↔ b.Accepts segment b' := by
  constructor
  · intro h
    cases segment with
    | text content =>
        rw [step_text rfl] at h
        cases h
        exact .text rfl
    | unterminated => cases h
    | marker inner =>
        cases hread : Marker.read inner with
        | error fault =>
            rw [step, hread] at h
            cases h
        | ok marker =>
            cases marker with
            | interpolation path =>
                rw [step_interpolation hread rfl] at h
                cases h
                exact .interpolation hread rfl
            | opener kind path =>
                rw [step_opener hread rfl] at h
                split at h
                · rename_i hroom
                  cases h
                  exact .opener hread rfl hroom
                · cases h
            | closer kind =>
                rw [step, hread] at h
                simp only [readMarker] at h
                split at h
                · cases h
                · rename_i block outer henclosing
                  split at h
                  · rename_i hkind
                    cases h
                    subst hkind
                    exact .closer hread rfl henclosing
                  · cases h
  · rintro (hstop | ⟨hread, hstop⟩ | ⟨hread, hstop, hroom⟩ | ⟨hread, hstop, henclosing⟩)
    · exact step_text hstop
    · exact step_interpolation hread hstop
    · rw [step_opener hread hstop, if_pos hroom]
    · exact step_closer hread henclosing hstop

/-- The segments that were read on the way to a state of the builder. -/
inductive Holds : Builder → List Segment → Prop
  | top {offset : Nat} {siblings : List Node} {segments : List Segment}
      (h : Spells 0 segments siblings.reverse offset) : Holds ⟨offset, siblings, []⟩ segments
  | inside {offset start bodyStart : Nat} {inner path : String} {kind : BlockKind}
      {before siblings : List Node} {outer : List OpenBlock} {read segments : List Segment}
      (houter : Holds ⟨start, before, outer⟩ read)
      (hopen : Marker.read inner = .ok (.opener kind path))
      (hstart : bodyStart = start + inner.utf8ByteSize + 4)
      (h : Spells bodyStart segments siblings.reverse offset) :
      Holds ⟨offset, siblings,
        ⟨kind, ⟨path, ⟨bodyStart - 2 - path.utf8ByteSize, bodyStart - 2⟩⟩, start, before⟩ :: outer⟩
        (read ++ .marker inner :: segments)

theorem Spells.append {start mid stop : Nat} {segments segments' : List Segment}
    {nodes nodes' : List Node} (h : Spells start segments nodes mid)
    (h' : Spells mid segments' nodes' stop) :
    Spells start (segments ++ segments') (nodes ++ nodes') stop := by
  induction h with
  | nil start => exact h'
  | text hmid _ ih => exact .text hmid (ih h')
  | interpolation hread hmid _ ih => exact .interpolation hread hmid (ih h')
  | block hopen hstart hbody hclose hmid _ _ ih =>
      rw [List.cons_append, List.append_assoc]
      exact .block hopen hstart hbody hclose hmid (ih h')

theorem Holds.spells {b : Builder} {read : List Segment} (h : Holds b read)
    (hb : b.enclosing = []) : Spells 0 read b.siblings.reverse b.offset := by
  cases h with
  | top hread => exact hread
  | inside => cases hb

theorem Spells.holds {segments : List Segment} {nodes : List Node} {stop : Nat}
    (h : Spells 0 segments nodes stop) : Holds ⟨stop, nodes.reverse, []⟩ segments :=
  .top (by rwa [List.reverse_reverse])

theorem Holds.push {b : Builder} {read segments : List Segment} {node : Node} {stop : Nat}
    (h : Holds b read) (hnode : Spells b.offset segments [node] stop) :
    Holds ⟨stop, node :: b.siblings, b.enclosing⟩ (read ++ segments) := by
  cases h with
  | top hread =>
      refine .top ?_
      rw [List.reverse_cons]
      exact hread.append hnode
  | inside houter hopen hstart hread =>
      rw [List.append_assoc, List.cons_append]
      refine .inside houter hopen hstart ?_
      rw [List.reverse_cons]
      exact hread.append hnode

theorem Holds.step {source : String} {b b' : Builder} {read : List Segment} {segment : Segment}
    (h : Holds b read) (hstep : Builder.step source b segment = .ok b') :
    Holds b' (read ++ [segment]) := by
  cases Builder.step_eq_ok_iff.mp hstep with
  | text hstop => exact h.push (.text hstop (.nil _))
  | interpolation hread hstop => exact h.push (.interpolation hread hstop (.nil _))
  | opener hread hstop _ => exact .inside h hread hstop (.nil _)
  | closer hread hstop henclosing =>
      cases h with
      | top => cases henclosing
      | inside houter hopen hstart hbody =>
          cases henclosing
          rw [List.append_assoc, List.cons_append]
          exact houter.push (.block hopen hstart hbody hread hstop (.nil _))

theorem Holds.foldlM {source : String} {segments : List Segment} : ∀ {b b' : Builder}
    {read : List Segment}, Holds b read → segments.foldlM (Builder.step source) b = .ok b' →
    Holds b' (read ++ segments) := by
  induction segments with
  | nil =>
      intro b b' read h hfold
      cases hfold
      rwa [List.append_nil]
  | cons segment rest ih =>
      intro b b' read h hfold
      rw [List.foldlM_cons] at hfold
      cases hstep : Builder.step source b segment with
      | error e =>
          rw [hstep] at hfold
          cases hfold
      | ok next =>
          rw [hstep] at hfold
          have := ih (h.step hstep) hfold
          rwa [List.append_assoc] at this

/-! ## Parsing -/

/-- A source that spells a forest is read into it, unless a block is too deep: then the first
such block is reported. -/
theorem Spells.parse_eq {source : String} {nodes : List Node} {stop : Nat}
    (h : Spells 0 (Segment.ofSource source) nodes stop) :
    Node.parse source = match Node.tooDeepAtAll? maxNesting nodes with
      | none => .ok nodes
      | some offset => .error (.locate source offset (.tooDeep maxNesting)) := by
  have hfold := h.foldlM_step source Builder.start rfl
  rw [Node.parse, hfold]
  simp only [Builder.start, List.length_nil, Nat.sub_zero, List.append_nil]
  cases Node.tooDeepAtAll? maxNesting nodes with
  | none => simp [Bind.bind, Except.bind, Builder.finish]
  | some offset => rfl

theorem Spells.of_parse_eq_ok {source : String} {nodes : List Node}
    (h : Node.parse source = .ok nodes) :
    ∃ stop, Spells 0 (Segment.ofSource source) nodes stop := by
  rw [Node.parse] at h
  cases hfold : (Segment.ofSource source).foldlM (Builder.step source) Builder.start with
  | error e =>
      rw [hfold] at h
      cases h
  | ok b =>
      rw [hfold] at h
      have hread : Holds b (Segment.ofSource source) := Holds.foldlM (.top (.nil 0)) hfold
      simp only [Bind.bind, Except.bind, Builder.finish] at h
      split at h
      · rename_i henclosing
        cases h
        exact ⟨_, hread.spells henclosing⟩
      · cases h

theorem Spells.not_mem_unterminated {start stop : Nat} {segments : List Segment} {nodes : List Node}
    (h : Spells start segments nodes stop) : Segment.unterminated ∉ segments := by
  induction h with
  | nil => simp
  | text _ _ ih => simpa using ih
  | interpolation _ _ _ ih => simpa using ih
  | block _ _ _ _ _ _ ihbody ih => simpa using ⟨ihbody, ih⟩

theorem Spells.read_of_mem {start stop : Nat} {segments : List Segment} {nodes : List Node}
    (h : Spells start segments nodes stop) {inner : String} (hmem : .marker inner ∈ segments) :
    ∃ marker, Marker.read inner = .ok marker := by
  induction h with
  | nil => cases hmem
  | text _ _ ih =>
      rcases List.mem_cons.mp hmem with heq | hmem
      · cases heq
      · exact ih hmem
  | interpolation hread _ _ ih =>
      rcases List.mem_cons.mp hmem with heq | hmem
      · cases heq
        exact ⟨_, hread⟩
      · exact ih hmem
  | block hopen _ _ hclose _ _ ihbody ih =>
      rcases List.mem_cons.mp hmem with heq | hmem
      · cases heq
        exact ⟨_, hopen⟩
      · rcases List.mem_append.mp hmem with hmem | hmem
        · exact ihbody hmem
        · rcases List.mem_cons.mp hmem with heq | hmem
          · cases heq
            exact ⟨_, hclose⟩
          · exact ih hmem

theorem utf8ByteSize_markerText (inner : String) :
    (markerText inner).utf8ByteSize = inner.utf8ByteSize + 4 := by
  simp only [markerText, String.utf8ByteSize_append]
  have hopen : "\x7b\x7b".utf8ByteSize = 2 := rfl
  have hclose : "\x7d\x7d".utf8ByteSize = 2 := rfl
  omega

theorem Spells.stop_eq {start stop : Nat} {segments : List Segment} {nodes : List Node}
    (h : Spells start segments nodes stop) :
    stop = start + (Segment.spellingAll segments).utf8ByteSize := by
  induction h with
  | nil => simp
  | text hmid _ ih =>
      simp only [Segment.spellingAll_cons, Segment.spelling, String.utf8ByteSize_append]
      omega
  | interpolation _ hmid _ ih =>
      simp only [Segment.spellingAll_cons, Segment.spelling, String.utf8ByteSize_append,
        utf8ByteSize_markerText]
      omega
  | block _ hstart _ _ hmid _ ihbody ih =>
      simp only [Segment.spellingAll_cons, Segment.spellingAll_append, Segment.spelling,
        String.utf8ByteSize_append, utf8ByteSize_markerText]
      omega

theorem spellingAll_ofSource {source : String} (h : .unterminated ∉ Segment.ofSource source) :
    Segment.spellingAll (Segment.ofSource source) = source :=
  (Segment.spellingAll_ofChars h).trans String.ofList_toList

/-- Parsing reads a source into the one forest that it spells, if no block is too deep. -/
theorem Node.parse_eq_ok_iff {source : String} {nodes : List Node} :
    Node.parse source = .ok nodes ↔
      Spells 0 (Segment.ofSource source) nodes source.utf8ByteSize ∧
        Node.heightAll nodes ≤ maxNesting := by
  rw [← Node.tooDeepAtAll?_eq_none_iff]
  constructor
  · intro h
    obtain ⟨stop, hspells⟩ := Spells.of_parse_eq_ok h
    have hstop := hspells.stop_eq
    rw [spellingAll_ofSource hspells.not_mem_unterminated, Nat.zero_add] at hstop
    subst hstop
    refine ⟨hspells, ?_⟩
    rw [hspells.parse_eq] at h
    cases hdeep : Node.tooDeepAtAll? maxNesting nodes with
    | none => rfl
    | some offset =>
        rw [hdeep] at h
        cases h
  · rintro ⟨hspells, hdeep⟩
    rw [hspells.parse_eq, hdeep]

theorem Template.compile_eq_ok_iff {source : String} {t : Template} :
    Template.compile source = .ok t ↔ t.source = source ∧ Node.parse source = .ok t.nodes := by
  rw [Template.compile]
  obtain ⟨source', nodes⟩ := t
  cases Node.parse source <;> simp [Except.map, eq_comm, and_comm]

theorem Template.spells_of_compile {source : String} {t : Template}
    (h : Template.compile source = .ok t) :
    Spells 0 (Segment.ofSource source) t.nodes source.utf8ByteSize ∧
      Node.heightAll t.nodes ≤ maxNesting :=
  Node.parse_eq_ok_iff.mp (Template.compile_eq_ok_iff.mp h).2

end Stencil
