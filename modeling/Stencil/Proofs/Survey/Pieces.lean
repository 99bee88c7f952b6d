import Stencil.Survey.Validation
import Stencil.Proofs.Template.OpenBlocks
import Stencil.Proofs.Template.Recut

/-!
# The pieces of a well-cut text

A survey and a parse look for markers in different ways: the one for the leftmost text that is a
marker as a whole, the other for the first opening pair and then the first closing pair. On a text
that is well cut, with markers that have no braces inside, they find the same markers
(`Piece.ofChars_spellingAll_append`), and what is left between them holds no opening pair
(`unterminatedAt?_foldr_prepend`). Both hold of the part of a source that comes before some place,
whatever comes after it.
-/

namespace Stencil

/-- The text between the braces of a marker. -/
def Segment.inner? : Segment → Option (List Char)
  | .marker inner => some inner.toList
  | _ => none

namespace Survey

theorem byteSize_eq_utf8Len (cs : List Char) : byteSize cs = String.utf8Len cs := by
  induction cs with
  | nil => rfl
  | cons c cs ih =>
      rw [String.utf8Len_cons, ← ih]
      exact Nat.add_comm _ _

theorem byteSize_append (cs ds : List Char) : byteSize (cs ++ ds) = byteSize cs + byteSize ds := by
  simp only [byteSize_eq_utf8Len, String.utf8Len_append]

theorem byteSize_toList (text : String) : byteSize text.toList = text.utf8ByteSize := by
  rw [byteSize_eq_utf8Len, String.utf8Len_toList]

theorem isBrace_eq_false_of_read {inner : String} {marker : Marker}
    (h : Marker.read inner = .ok marker) : ∀ c ∈ inner.toList, isBrace c = false := by
  intro c hc
  obtain ⟨hopen, hclose⟩ := Marker.ne_brace_of_read h c hc
  simp [isBrace, hopen, hclose]

theorem openBraces?_eq (cs : List Char) :
    openBraces? cs = (cutAtPair '{' cs).map fun (before, _) => byteSize before := by
  fun_induction openBraces? cs with
  | case1 a b rest hab =>
      rw [cutAtPair, if_pos hab]
      rfl
  | case2 a b rest hab ih =>
      rw [cutAtPair, if_neg hab, ih, Option.map_map, Option.map_map]
      rfl
  | case3 cs hcs =>
      rw [cutAtPair]
      · rfl
      · exact hcs

/-- Where the first part of a gap has no opening pair, the first one is in the rest. -/
theorem openBraces?_append {content gap : List Char} (hpair : ¬['{', '{'] <:+: content)
    (hseam : ¬(content.getLast? = some '{' ∧ gap.head? = some '{')) :
    openBraces? (content ++ gap) = (openBraces? gap).map (byteSize content + ·) := by
  rw [openBraces?_eq, openBraces?_eq,
    cutAtPair_append_of_none (cutAtPair_eq_none_iff.mpr hpair) hseam, Option.map_map,
    Option.map_map]
  refine congrArg (Option.map · _) (funext fun cut => ?_)
  exact byteSize_append content cut.1

theorem markerHere?_of_brace_free {inner : List Char} (h : ∀ c ∈ inner, isBrace c = false)
    (rest : List Char) :
    markerHere? ('{' :: '{' :: (inner ++ '}' :: '}' :: rest)) = some (inner, rest) := by
  have hinner : ∀ c ∈ inner, (!isBrace c) = true := fun c hc => by rw [h c hc]; rfl
  rw [markerHere?, List.dropWhile_append_of_pos hinner, List.takeWhile_append_of_pos hinner]
  simp [isBrace]

theorem markerHere?_eq_none {c : Char} {cs : List Char} (h : ¬(c = '{' ∧ cs.head? = some '{')) :
    markerHere? (c :: cs) = none := by
  rw [markerHere?]
  intro cs' heq
  obtain ⟨rfl, rfl⟩ := List.cons.inj heq
  exact h ⟨rfl, rfl⟩

namespace Piece

def inner? : Piece → Option (List Char)
  | .gap _ => none
  | .marker inner => some inner

/-- The pieces of a segment, put in front of other pieces. -/
def prepend : Segment → List Piece → List Piece
  | .text content, after => content.toList.foldr extend after
  | .marker inner, after => .gap [] :: .marker inner.toList :: after
  | .unterminated, after => after

theorem ofChars_nil : ofChars [] = [.gap []] := by
  rw [ofChars]
  rfl

theorem ofChars_markerText {inner : String} (h : ∀ c ∈ inner.toList, isBrace c = false)
    (rest : List Char) :
    ofChars ((markerText inner).toList ++ rest) =
      .gap [] :: .marker inner.toList :: ofChars rest := by
  have hchars : (markerText inner).toList ++ rest =
      '{' :: '{' :: (inner.toList ++ '}' :: '}' :: rest) := by
    simp [markerText]
  rw [hchars, ofChars]
  split
  · rename_i hmarker
    rw [markerHere?_of_brace_free h] at hmarker
    cases hmarker
    rfl
  · rename_i hmarker
    rw [markerHere?_of_brace_free h] at hmarker
    cases hmarker

theorem ofChars_cons {c : Char} {cs : List Char} (h : ¬(c = '{' ∧ cs.head? = some '{')) :
    ofChars (c :: cs) = extend c (ofChars cs) := by
  rw [ofChars]
  split
  · rename_i hmarker
    rw [markerHere?_eq_none h] at hmarker
    cases hmarker
  · rfl

theorem ofChars_append {content : List Char} (hpair : ¬['{', '{'] <:+: content)
    {tail : List Char} (hseam : ¬(content.getLast? = some '{' ∧ tail.head? = some '{')) :
    ofChars (content ++ tail) = content.foldr extend (ofChars tail) := by
  induction content with
  | nil => rfl
  | cons c rest ih =>
      have hrest : ¬['{', '{'] <:+: rest := fun h => hpair (h.trans (List.suffix_cons ..).isInfix)
      have hhead : ¬(c = '{' ∧ (rest ++ tail).head? = some '{') := by
        rintro ⟨rfl, hhead⟩
        cases rest with
        | nil => exact hseam ⟨rfl, hhead⟩
        | cons d rest =>
            obtain rfl := Option.some.inj hhead
            exact hpair ⟨[], rest, rfl⟩
      have hseam' : ¬(rest.getLast? = some '{' ∧ tail.head? = some '{') := fun h =>
        hseam ⟨by rw [List.getLast?_cons, h.1]; rfl, h.2⟩
      rw [List.cons_append, ofChars_cons hhead, ih hrest hseam', List.foldr_cons]

/-- A well-cut text has the pieces of its segments in front of those of what comes after it. -/
theorem ofChars_spellingAll_append {segments : List Segment} (hcut : Segment.WellCut segments)
    (hclosed : .unterminated ∉ segments)
    (hbrace : ∀ inner, .marker inner ∈ segments → ∀ c ∈ inner.toList, isBrace c = false)
    {tail : List Char} (hseam : ¬((Segment.spellingAll segments).toList.getLast? = some '{' ∧
      tail.head? = some '{')) :
    ofChars ((Segment.spellingAll segments).toList ++ tail) =
      segments.foldr prepend (ofChars tail) := by
  induction segments with
  | nil => simp
  | cons segment rest ih =>
      have hseam' : ¬((Segment.spellingAll rest).toList.getLast? = some '{' ∧
          tail.head? = some '{') := fun h => hseam ⟨by simp [List.getLast?_append, h.1], h.2⟩
      have hrest := ih (hcut.part (List.suffix_cons ..).isInfix)
        (fun hmem => hclosed (List.mem_cons_of_mem _ hmem))
        (fun inner hmem => hbrace inner (List.mem_cons_of_mem _ hmem)) hseam'
      rw [Segment.spellingAll_cons, String.toList_append, List.append_assoc, List.foldr_cons,
        ← hrest]
      cases segment with
      | unterminated => exact absurd (List.mem_cons_self ..) hclosed
      | marker inner => exact ofChars_markerText (hbrace inner (List.mem_cons_self ..)) _
      | text content =>
          have hpair := (hcut.sound _ (List.mem_cons_self ..)).2
          refine ofChars_append hpair fun hmeet => ?_
          cases rest with
          | nil =>
              refine hseam ⟨?_, ?_⟩
              · simpa [Segment.spelling] using hmeet.1
              · simpa using hmeet.2
          | cons next after =>
              exact ((List.isChain_cons.mp hcut.meets).1 next rfl).2 hmeet.1

theorem foldr_extend_gap (content gap : List Char) (after : List Piece) :
    content.foldr extend (.gap gap :: after) = .gap (content ++ gap) :: after := by
  induction content with
  | nil => rfl
  | cons c rest ih => rw [List.foldr_cons, ih, List.cons_append, extend]

/-- Where no text comes first, the first gap is empty or that of the pieces after. -/
theorem exists_foldr_prepend {segments : List Segment} (hclosed : .unterminated ∉ segments)
    (hhead : ∀ segment ∈ segments.head?, ¬segment.IsText) (gap : List Char) (after : List Piece) :
    ∃ first rest, segments.foldr prepend (.gap gap :: after) = .gap first :: rest ∧
      (segments = [] ∧ first = gap ∨ segments ≠ [] ∧ first = []) := by
  cases segments with
  | nil => exact ⟨gap, after, rfl, .inl ⟨rfl, rfl⟩⟩
  | cons segment rest =>
      cases segment with
      | text => exact absurd trivial (hhead _ rfl)
      | marker => exact ⟨[], _, rfl, .inr ⟨List.cons_ne_nil _ _, rfl⟩⟩
      | unterminated => simp at hclosed

theorem filterMap_inner?_foldr_extend (content : List Char) (after : List Piece) :
    (content.foldr extend after).filterMap inner? = after.filterMap inner? := by
  induction content with
  | nil => rfl
  | cons c rest ih =>
      rw [List.foldr_cons, ← ih]
      cases rest.foldr extend after with
      | nil => rfl
      | cons piece pieces => cases piece <;> rfl

theorem filterMap_inner?_foldr_prepend (segments : List Segment) (after : List Piece) :
    (segments.foldr prepend after).filterMap inner? =
      segments.filterMap Segment.inner? ++ after.filterMap inner? := by
  induction segments with
  | nil => rfl
  | cons segment rest ih =>
      rw [List.foldr_cons]
      cases segment with
      | text content => exact (filterMap_inner?_foldr_extend _ _).trans ih
      | marker inner => exact congrArg (inner.toList :: ·) ih
      | unterminated => exact ih

end Piece

theorem unterminatedAt?_gap_append {content gap : List Char} (hpair : ¬['{', '{'] <:+: content)
    (hseam : ¬(content.getLast? = some '{' ∧ gap.head? = some '{')) (offset : Nat)
    (after : List Piece) :
    unterminatedAt? offset (.gap (content ++ gap) :: after) =
      unterminatedAt? (offset + byteSize content) (.gap gap :: after) := by
  rw [unterminatedAt?, unterminatedAt?, openBraces?_append hpair hseam, byteSize_append]
  cases openBraces? gap with
  | none => exact congrArg (unterminatedAt? · after) (Nat.add_assoc ..).symm
  | some n => exact congrArg some (Nat.add_assoc ..).symm

/-- No opening pair is left in what a well-cut text spells. -/
theorem unterminatedAt?_foldr_prepend {segments : List Segment} (hcut : Segment.WellCut segments)
    (hclosed : .unterminated ∉ segments) {gap : List Char}
    (hseam : ¬((Segment.spellingAll segments).toList.getLast? = some '{' ∧
      gap.head? = some '{')) (after : List Piece) : ∀ offset : Nat,
    unterminatedAt? offset (segments.foldr Piece.prepend (.gap gap :: after)) =
      unterminatedAt? (offset + (Segment.spellingAll segments).utf8ByteSize)
        (.gap gap :: after) := by
  induction segments with
  | nil => exact fun _ => rfl
  | cons segment rest ih =>
      intro offset
      have hclosed' : .unterminated ∉ rest := fun hmem => hclosed (List.mem_cons_of_mem _ hmem)
      have hseam' : ¬((Segment.spellingAll rest).toList.getLast? = some '{' ∧
          gap.head? = some '{') := fun h => hseam ⟨by simp [List.getLast?_append, h.1], h.2⟩
      have hrest := ih (hcut.part (List.suffix_cons ..).isInfix) hclosed' hseam'
      rw [List.foldr_cons, Segment.spellingAll_cons, String.utf8ByteSize_append, ← Nat.add_assoc,
        ← hrest]
      cases segment with
      | unterminated => exact absurd (List.mem_cons_self ..) hclosed
      | marker inner =>
          rw [Piece.prepend, Segment.spelling, utf8ByteSize_markerText, ← byteSize_toList,
            ← Nat.add_assoc]
          rfl
      | text content =>
          obtain ⟨-, hpair⟩ := hcut.sound _ (List.mem_cons_self ..)
          have hmeets := (List.isChain_cons.mp hcut.meets).1
          obtain ⟨first, pieces, hpieces, hfirst⟩ := Piece.exists_foldr_prepend hclosed'
            (fun next hnext => (hmeets next hnext).1) gap after
          have hmeet : ¬(content.toList.getLast? = some '{' ∧ first.head? = some '{') := by
            rintro ⟨hlast, hhead⟩
            rcases hfirst with ⟨rfl, rfl⟩ | ⟨-, rfl⟩
            · exact hseam ⟨by simpa [Segment.spelling] using hlast, hhead⟩
            · cases hhead
          rw [hpieces, Piece.prepend, Piece.foldr_extend_gap,
            unterminatedAt?_gap_append hpair hmeet, byteSize_toList, Segment.spelling]

/-- The place that is found is not before the pieces. -/
theorem le_of_unterminatedAt? {pieces : List Piece} {offset place : Nat}
    (h : unterminatedAt? offset pieces = some place) : offset ≤ place := by
  induction pieces generalizing offset with
  | nil => cases h
  | cons piece rest ih =>
      cases piece with
      | marker inner =>
          have hrest := ih h
          omega
      | gap content =>
          rw [unterminatedAt?] at h
          split at h
          · obtain rfl := Option.some.inj h
            exact Nat.le_add_right _ _
          · have hrest := ih h
            omega

/-! ## What has been read -/

variable {source : String} {b : Builder} {read : List Segment}

theorem ofChars_of_holds (h : Holds b read) (hcut : Segment.WellCut read) {tail : List Char}
    (hseam : ¬((Segment.spellingAll read).toList.getLast? = some '{' ∧ tail.head? = some '{')) :
    Piece.ofChars ((Segment.spellingAll read).toList ++ tail) =
      read.foldr Piece.prepend (Piece.ofChars tail) := by
  refine Piece.ofChars_spellingAll_append hcut h.not_mem_unterminated (fun inner hmem => ?_) hseam
  obtain ⟨marker, hread⟩ := h.read_of_mem hmem
  exact isBrace_eq_false_of_read hread

theorem ofSource_eq_foldr_prepend (h : Holds b (Segment.ofSource source)) :
    Piece.ofSource source = (Segment.ofSource source).foldr Piece.prepend [.gap []] := by
  have hpieces : Piece.ofChars ((Segment.spellingAll (Segment.ofSource source)).toList ++ []) =
      (Segment.ofSource source).foldr Piece.prepend (Piece.ofChars []) :=
    ofChars_of_holds h (Segment.wellCut_ofChars source.toList) (by simp)
  rwa [spellingAll_ofSource h.not_mem_unterminated, List.append_nil, Piece.ofChars_nil]
    at hpieces

/-- A survey finds the markers that the parse finds. -/
theorem markers_eq (h : Holds b (Segment.ofSource source)) :
    markers source = (Segment.ofSource source).filterMap Segment.inner? := by
  have hmarkers : markers source = (Piece.ofSource source).filterMap Piece.inner? := rfl
  rw [hmarkers, ofSource_eq_foldr_prepend h, Piece.filterMap_inner?_foldr_prepend]
  simp [Piece.inner?]

theorem unterminatedAt?_eq_none (h : Holds b (Segment.ofSource source)) :
    unterminatedAt? 0 (Piece.ofSource source) = none := by
  rw [ofSource_eq_foldr_prepend h]
  exact unterminatedAt?_foldr_prepend (Segment.wellCut_ofChars source.toList)
    h.not_mem_unterminated (by simp) [] 0

end Survey

end Stencil
