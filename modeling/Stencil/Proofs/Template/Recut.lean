import Stencil.Proofs.Template.Cut
import Stencil.Proofs.Template.Marker

/-!
# Cutting what a cut spells

A cut can be taken up again at each of its segments: what follows them in the source is cut into
what follows them in the cut (`Segment.exists_rest_of_ofChars`). And whatever looks like a cut is
the cut of what it spells (`Segment.ofChars_spellingAll`); where it ends in a marker this does not
even depend on the text that comes after it (`Segment.ofChars_append_of_marker`).
-/

namespace Stencil.Segment

variable {cs : List Char} {inner : String} {segment : Segment} {read segments : List Segment}

@[simp] theorem ofChars_nil : ofChars [] = [] := ofChars_of_none rfl

/-- A doubled opening brace is where a marker starts. -/
theorem ofChars_pair (opened : List Char) : ofChars ('{' :: '{' :: opened) = ofOpened opened := by
  have hopen : cutAtPair '{' ('{' :: '{' :: opened) = some ([], opened) := by
    rw [cutAtPair, if_pos ⟨rfl, rfl⟩]
  exact ofChars_of_some hopen

theorem not_pair_of_not_mem {mark : Char} (h : mark ∉ cs) : ¬[mark, mark] <:+: cs ++ [mark] := by
  rintro ⟨before, after, heq⟩
  have hcount := congrArg (List.count mark) heq
  simp only [List.count_append, List.count_cons_self, List.count_nil,
    List.count_eq_zero_of_not_mem h] at hcount
  omega

theorem sound_of_read {m : Marker} (h : Marker.read inner = .ok m) : (marker inner).Sound :=
  not_pair_of_not_mem fun hmem => (Marker.ne_brace_of_read h _ hmem).2 rfl

theorem ofChars_markerText (h : (marker inner).Sound) (rest : List Char) :
    ofChars ((markerText inner).toList ++ rest) = marker inner :: ofChars rest := by
  have hchars : (markerText inner).toList ++ rest =
      '{' :: '{' :: (inner.toList ++ '}' :: '}' :: rest) := by
    simp [markerText]
  rw [hchars, ofChars_pair, ofOpened_of_some (cutAtPair_append_pair h rest), String.ofList_toList]

theorem ofChars_closerText (kind : BlockKind) :
    ofChars kind.closerText.toList = [marker ("/" ++ kind.keyword)] := by
  have h := ofChars_markerText (sound_of_read kind.read_closerInner) []
  rwa [List.append_nil, ofChars_nil] at h

theorem ofChars_text {content : String} (h : (text content).Sound) :
    ofChars content.toList = [text content] := by
  obtain ⟨hempty, hpair⟩ := h
  have hchars : content.toList.isEmpty = false := by
    simpa [List.isEmpty_eq_false_iff] using hempty
  rw [ofChars_of_none (cutAtPair_eq_none_iff.mpr hpair), ofText, hchars, String.ofList_toList]
  rfl

/-! ## Taking a cut up again -/

/-- A segment is the first one of a source that starts with what it spells. -/
theorem exists_rest_of_ofChars_cons (h : ofChars cs = segment :: segments)
    (hclosed : segment ≠ unterminated) :
    ∃ rest, cs = segment.spelling.toList ++ rest ∧ ofChars rest = segments := by
  cases hopen : cutAtPair '{' cs with
  | none =>
      rw [ofChars_of_none hopen, ofText] at h
      split at h
      · cases h
      · cases h
        exact ⟨[], by simp [spelling], ofChars_nil⟩
  | some cut =>
      obtain ⟨before, opened⟩ := cut
      rw [ofChars_of_some hopen, ofText] at h
      obtain rfl := eq_of_cutAtPair hopen
      split at h
      · rename_i hbefore
        obtain rfl := List.isEmpty_iff.mp hbefore
        rw [List.nil_append] at h
        cases hclose : cutAtPair '}' opened with
        | none =>
            rw [ofOpened_of_none hclose] at h
            cases h
            exact absurd rfl hclosed
        | some cut =>
            obtain ⟨inner, rest⟩ := cut
            rw [ofOpened_of_some hclose] at h
            cases h
            exact ⟨rest, by simp [eq_of_cutAtPair hclose, spelling, markerText], rfl⟩
      · cases h
        exact ⟨'{' :: '{' :: opened, by simp [spelling], ofChars_pair opened⟩

theorem exists_rest_of_ofChars (h : ofChars cs = read ++ segments)
    (hclosed : unterminated ∉ read) :
    ∃ rest, cs = (spellingAll read).toList ++ rest ∧ ofChars rest = segments := by
  induction read generalizing cs with
  | nil => exact ⟨cs, by simp, h⟩
  | cons segment read ih =>
      have hsegment : segment ≠ unterminated := fun heq => hclosed (heq ▸ List.mem_cons_self ..)
      obtain ⟨rest, rfl, hrest⟩ := exists_rest_of_ofChars_cons h hsegment
      obtain ⟨rest', rfl, hrest'⟩ := ih hrest fun hmem => hclosed (List.mem_cons_of_mem _ hmem)
      exact ⟨rest', by simp, hrest'⟩

/-- After the opening braces of a marker that is never closed there are no closing ones. -/
theorem exists_opened_of_ofChars (h : ofChars cs = unterminated :: segments) :
    ∃ opened, cs = '{' :: '{' :: opened ∧ ¬['}', '}'] <:+: opened := by
  cases hopen : cutAtPair '{' cs with
  | none =>
      rw [ofChars_of_none hopen, ofText] at h
      split at h <;> cases h
  | some cut =>
      obtain ⟨before, opened⟩ := cut
      rw [ofChars_of_some hopen, ofText] at h
      obtain rfl := eq_of_cutAtPair hopen
      split at h
      · rename_i hbefore
        obtain rfl := List.isEmpty_iff.mp hbefore
        refine ⟨opened, rfl, fun hpair => ?_⟩
        cases hclose : cutAtPair '}' opened with
        | none => exact cutAtPair_eq_none_iff.mp hclose hpair
        | some cut =>
            rw [List.nil_append, ofOpened_of_some hclose] at h
            cases h
      · cases h

/-! ## What looks like a cut -/

/-- What was read before a segment does not end in a brace that could belong to the segment. -/
theorem WellCut.getLast?_ne {rest : List Segment} (hcut : WellCut (read ++ segment :: rest))
    (hclosed : unterminated ∉ read) : (spellingAll read).toList.getLast? ≠ some '{' := by
  rcases List.eq_nil_or_concat' read with rfl | ⟨init, last, rfl⟩
  · simp
  · rw [spellingAll_append, spellingAll_cons, spellingAll_nil, String.append_empty,
      String.toList_append]
    cases last with
    | unterminated => simp at hclosed
    | marker inner => simp [spelling, markerText, List.getLast?_append, List.getLast?_cons]
    | text content =>
        have hmem : text content ∈ init ++ [text content] ++ segment :: rest := by simp
        obtain ⟨hempty, -⟩ := hcut.sound _ hmem
        have hmeets : (text content).Meets segment := by
          have hchain := hcut.meets
          rw [List.append_assoc] at hchain
          exact (List.isChain_cons.mp (List.isChain_append.mp hchain).2.1).1 segment rfl
        have hchars : content.toList ≠ [] := by simpa using hempty
        rw [spelling, List.getLast?_append_of_ne_nil _ hchars]
        exact hmeets.2

/-- A marker begins with a brace and a text that comes before it does not end in one, so what
spells the segments of a cut is cut into them again. -/
theorem ofChars_spellingAll (hcut : WellCut segments) (hclosed : unterminated ∉ segments) :
    ofChars (spellingAll segments).toList = segments := by
  induction segments with
  | nil => simp
  | cons segment rest ih =>
      have hrest := ih (hcut.part (List.suffix_cons ..).isInfix)
        fun hmem => hclosed (List.mem_cons_of_mem _ hmem)
      rw [spellingAll_cons, String.toList_append]
      cases segment with
      | unterminated => exact absurd (List.mem_cons_self ..) hclosed
      | marker inner =>
          have hsound := hcut.sound _ (List.mem_cons_self ..)
          rw [spelling, ofChars_markerText hsound, hrest]
      | text content =>
          have htext := ofChars_text (hcut.sound _ (List.mem_cons_self ..))
          have hmeets := (List.isChain_cons.mp hcut.meets).1
          have hopen : unterminated ∉ ofChars content.toList := by
            rw [htext]
            simp
          cases rest with
          | nil => simpa [spelling] using htext
          | cons next after =>
              obtain ⟨hnext, hlast⟩ := hmeets next rfl
              rw [spelling, ofChars_append hopen fun hseam => hlast hseam.1, htext, hrest]
              cases next with
              | text => exact absurd trivial hnext
              | unterminated => simp at hclosed
              | marker => exact glue_marker _ _ _

theorem ofChars_append_of_marker (hcut : WellCut (read ++ [marker inner]))
    (hclosed : unterminated ∉ read) (rest : List Char) :
    ofChars ((spellingAll (read ++ [marker inner])).toList ++ rest) =
      read ++ marker inner :: ofChars rest := by
  have hread := ofChars_spellingAll hcut (by simpa using hclosed)
  have hopen : unterminated ∉ ofChars (spellingAll (read ++ [marker inner])).toList := by
    rw [hread]
    simpa using hclosed
  have hlast : (spellingAll (read ++ [marker inner])).toList.getLast? ≠ some '{' := by
    simp [spelling, markerText, List.getLast?_cons]
  rw [ofChars_append hopen fun hseam => hlast hseam.1, hread, append_marker_glue, nil_glue]

end Stencil.Segment
