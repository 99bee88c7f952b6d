import Stencil.Survey.Stats
import Stencil.Proofs.Survey.Pieces

/-!
# Directives as a survey sees them

A survey tells openers, closers and interpolations apart by rules of its own: an opener may be
followed by anything after a blank, and a path is trimmed at both ends. On the markers that a parse
accepts its rules come to the same (`opener_of_read`, `closer_of_read`, `interpolation_of_read`). So
the directives that it counts in a source that spells a forest are the nodes of the forest, at every
depth.
-/

namespace Stencil.Survey

variable {inner path : String} {kind : BlockKind}

theorem opener?_eq_none {cs : List Char} (h : cs.head? ≠ some '#') : opener? cs = none := by
  have hafter : ∀ kind, afterKeyword? kind cs = none := by
    intro kind
    cases cs with
    | nil => rfl
    | cons c cs =>
        rw [afterKeyword?]
        intro cs' heq
        obtain ⟨rfl, -⟩ := List.cons.inj heq
        exact h rfl
  rw [opener?, List.findSome?_eq_none_iff]
  intro kind _
  rw [hafter]

theorem closer?_eq_none {cs : List Char} (h : cs.head? ≠ some '/') : closer? cs = none := by
  cases cs with
  | nil => rfl
  | cons c cs =>
      rw [closer?]
      intro cs' heq
      obtain ⟨rfl, -⟩ := List.cons.inj heq
      exact h rfl

/-- No keyword begins with another, so the keyword of an opener is found whatever comes after. -/
theorem opener?_openerInner {separator : Char} (hseparator : Text.isBlank separator = true)
    (blanks : List Char) :
    opener? (kind.openerInner separator blanks path).toList =
      some (kind, separator :: (blanks ++ path.toList)) := by
  have hinner : (kind.openerInner separator blanks path).toList =
      '#' :: (kind.keyword.toList ++ separator :: (blanks ++ path.toList)) := by
    simp [BlockKind.openerInner]
  rw [hinner]
  cases kind <;>
    simp [opener?, BlockKind.all, afterKeyword?, BlockKind.keyword, hseparator]

theorem trim_append_path {blanks : List Char} (hblanks : blanks.all Text.isBlank = true)
    (hpath : Path.isValid path = true) : Text.trim (blanks ++ path.toList) = path.toList := by
  have hreverse : ∀ c ∈ path.toList.reverse, Text.isBlank c = false := fun c hc =>
    Path.isBlank_eq_false_of_isValid hpath c (List.mem_reverse.mp hc)
  rw [Text.trim, Marker.trimStart_append_path hblanks hpath, Text.trimStart_eq_self hreverse,
    List.reverse_reverse]

/-! ## The three kinds of marker -/

theorem opener_of_read (h : Marker.read inner = .ok (.opener kind path)) :
    (∃ rest, opener? inner.toList = some (kind, rest) ∧ String.ofList (Text.trim rest) = path) ∧
      closer? inner.toList = none := by
  obtain ⟨hpath, separator, blanks, hseparator, hblanks, rfl⟩ := Marker.read_eq_opener_iff.mp h
  have hseparator := Text.isBlank_of_isSeparator hseparator
  refine ⟨⟨_, opener?_openerInner hseparator blanks, ?_⟩, closer?_eq_none ?_⟩
  · have hall : (separator :: blanks).all Text.isBlank = true := by simp [hseparator, hblanks]
    rw [← List.cons_append, trim_append_path hall hpath, String.ofList_toList]
  · simp [BlockKind.openerInner]

theorem closer_of_read (h : Marker.read inner = .ok (.closer kind)) :
    opener? inner.toList = none ∧ closer? inner.toList = some kind := by
  obtain rfl := Marker.read_eq_closer_iff.mp h
  have hinner : ("/" ++ kind.keyword).toList = '/' :: kind.keyword.toList := by simp
  rw [hinner]
  refine ⟨opener?_eq_none (by simp), ?_⟩
  rw [closer?, String.ofList_toList, BlockKind.ofKeyword?_keyword]

theorem interpolation_of_read (h : Marker.read inner = .ok (.interpolation path)) :
    opener? inner.toList = none ∧ closer? inner.toList = none ∧ inner = path := by
  obtain ⟨rfl, hpath⟩ := Marker.read_eq_interpolation_iff.mp h
  obtain ⟨c, cs, hchars, hc, -⟩ := Path.exists_of_isValid hpath
  rw [hchars]
  refine ⟨opener?_eq_none ?_, closer?_eq_none ?_, rfl⟩ <;> rintro ⟨⟩ <;> revert hc <;> decide

/-! ## The directives of a forest -/

/-- The kind of block that a marker opens. -/
def opens? (inner : List Char) : Option BlockKind := (opener? inner).map Prod.fst

section

variable {start stop : Nat} {segments : List Segment} {nodes : List Node} {β : Type}
  {f : List Char → Option β} {g : Node → Option β}

/-- What is told by interpolations and openers is told by the nodes, in the same order: every such
marker is where a node starts. -/
theorem filterMap_inner?_eq (h : Spells start segments nodes stop)
    (hliteral : ∀ text span, g (.literal text span) = none)
    (hinterpolation : ∀ inner path span, Marker.read inner = .ok (.interpolation path) →
      f inner.toList = g (.interpolation path span))
    (hopener : ∀ inner kind subject body span, Marker.read inner = .ok (.opener kind subject.path) →
      f inner.toList = g (.block kind subject body span))
    (hcloser : ∀ inner kind, Marker.read inner = .ok (.closer kind) → f inner.toList = none) :
    (segments.filterMap Segment.inner?).filterMap f = (Node.subnodesAll nodes).filterMap g := by
  induction h with
  | nil => rfl
  | text _ _ ih =>
      simp only [List.filterMap_cons, Segment.inner?, Node.subnodesAll, Node.subnodes,
        List.singleton_append, hliteral, ih]
  | @interpolation start mid stop inner path segments nodes hread _ _ ih =>
      have hread' := hinterpolation inner path ⟨start, mid⟩ hread
      simp only [List.filterMap_cons, Segment.inner?, Node.subnodesAll, Node.subnodes,
        List.singleton_append, hread', ih]
  | @block start bodyStart bodyStop mid stop inner inner' kind path bodySegments segments body nodes
      hopen _ _ hclose _ _ ihbody ih =>
      -- The opener tells what the block tells and the closer tells nothing, so what is left is the
      -- body and then the nodes after the block.
      have hopen' := hopener inner kind
        ⟨path, ⟨bodyStart - 2 - path.utf8ByteSize, bodyStart - 2⟩⟩ body ⟨start, mid⟩ hopen
      have hclose' := hcloser inner' kind hclose
      simp only [List.filterMap_cons, List.filterMap_append, Segment.inner?, Node.subnodesAll,
        Node.subnodes, List.cons_append, hopen', hclose', ihbody, ih]

theorem filterMap_opens? (h : Spells start segments nodes stop) :
    (segments.filterMap Segment.inner?).filterMap opens? =
      (Node.subnodesAll nodes).filterMap Node.kind? := by
  refine filterMap_inner?_eq h (fun _ _ => rfl) (fun inner path span hread => ?_)
    (fun inner kind subject body span hread => ?_) (fun inner kind hread => ?_)
  · rw [opens?, (interpolation_of_read hread).1]
    rfl
  · obtain ⟨⟨rest, hopener, -⟩, -⟩ := opener_of_read hread
    rw [opens?, hopener]
    rfl
  · rw [opens?, (closer_of_read hread).1]
    rfl

theorem filterMap_mention? (h : Spells start segments nodes stop) :
    (segments.filterMap Segment.inner?).filterMap mention? =
      (Node.subnodesAll nodes).filterMap Node.path? := by
  refine filterMap_inner?_eq h (fun _ _ => rfl) (fun inner path span hread => ?_)
    (fun inner kind subject body span hread => ?_) (fun inner kind hread => ?_)
  · obtain ⟨hopener, hcloser, rfl⟩ := interpolation_of_read hread
    simp [mention?, hopener, hcloser, Node.path?]
  · obtain ⟨⟨rest, hopener, hrest⟩, -⟩ := opener_of_read hread
    simp [mention?, hopener, hrest, Node.path?]
  · obtain ⟨hopener, hcloser⟩ := closer_of_read hread
    simp [mention?, hopener, hcloser]

/-- Every block is closed once, though not in the order in which they are opened. -/
theorem filterMap_closer?_perm (h : Spells start segments nodes stop) :
    ((segments.filterMap Segment.inner?).filterMap closer?).Perm
      ((Node.subnodesAll nodes).filterMap Node.kind?) := by
  induction h with
  | nil => exact .nil
  | text _ _ ih => exact ih
  | interpolation hread _ _ ih =>
      simpa [Segment.inner?, Node.subnodesAll, Node.subnodes, Node.kind?, List.filterMap_cons,
        (interpolation_of_read hread).2.1] using ih
  | @block start bodyStart bodyStop mid stop inner inner' kind path bodySegments segments body nodes
      hopen _ _ hclose _ _ ihbody ih =>
      -- The block is closed after what is closed in its body, but counts as opened before it.
      have hboth := (ihbody.append ih).cons kind
      have hmiddle := (@List.perm_middle _ kind
        ((bodySegments.filterMap Segment.inner?).filterMap closer?)
        ((segments.filterMap Segment.inner?).filterMap closer?)).trans hboth
      simpa [Segment.inner?, Node.subnodesAll, Node.subnodes, Node.kind?, List.filterMap_cons,
        (opener_of_read hopen).2, (closer_of_read hclose).2] using hmiddle

end

/-- Of each kind there is one opener more than closers for each block that is still open. -/
theorem count_opens?_of_holds {b : Builder} {read : List Segment} (h : Holds b read)
    (kind : BlockKind) :
    ((read.filterMap Segment.inner?).filterMap opens?).count kind =
      ((read.filterMap Segment.inner?).filterMap closer?).count kind +
        (b.enclosing.map OpenBlock.kind).count kind := by
  induction h with
  | top hspells =>
      rw [filterMap_opens? hspells, (filterMap_closer?_perm hspells).count_eq]
      rfl
  | @inside offset start bodyStart inner path kind' before siblings outer read segments
      _ hopen _ hspells ih =>
      obtain ⟨⟨rest, hopener, -⟩, hcloser⟩ := opener_of_read hopen
      have hopens : opens? inner.toList = some kind' := by
        rw [opens?, hopener]
        rfl
      have hinner : (Segment.marker inner).inner? = some inner.toList := rfl
      have hbody : ((segments.filterMap Segment.inner?).filterMap opens?).count kind =
          ((segments.filterMap Segment.inner?).filterMap closer?).count kind := by
        rw [filterMap_opens? hspells, (filterMap_closer?_perm hspells).count_eq]
      rw [List.filterMap_append, List.filterMap_append, List.filterMap_append,
        List.filterMap_cons_some hinner, List.filterMap_cons_some hopens,
        List.filterMap_cons_none hcloser, List.count_append, List.count_append, List.count_cons,
        List.map_cons, List.count_cons, ih, hbody]
      dsimp only
      omega

/-! ## What a survey counts -/

variable {source : String} {stop : Nat} {nodes : List Node}

theorem openerCount_eq {b : Builder} (h : Holds b (Segment.ofSource source)) (kind : BlockKind) :
    openerCount kind source =
      closerCount kind source + (b.enclosing.map OpenBlock.kind).count kind := by
  have hopened : openerCount kind source =
      (((Segment.ofSource source).filterMap Segment.inner?).filterMap opens?).count kind := by
    rw [openerCount, markers_eq h, List.count_filterMap]
    exact List.countP_congr fun inner _ => by simp [opens?]
  have hclosed : closerCount kind source =
      (((Segment.ofSource source).filterMap Segment.inner?).filterMap closer?).count kind := by
    rw [closerCount, markers_eq h, List.count_filterMap]
    exact List.countP_congr fun inner _ => by simp
  rw [hopened, hclosed, count_opens?_of_holds h kind]

theorem blockCount_eq (h : Spells 0 (Segment.ofSource source) nodes stop)
    (kinds : List BlockKind) :
    blockCount kinds source =
      ((Node.subnodesAll nodes).filterMap Node.kind?).countP kinds.contains := by
  rw [blockCount, markers_eq h.holds, ← filterMap_opens? h]
  generalize (Segment.ofSource source).filterMap Segment.inner? = inners
  rw [List.countP_filterMap]
  refine List.countP_congr fun inner _ => ?_
  rw [opens?]
  cases opener? inner <;> simp

end Stencil.Survey
