import Stencil.Template.Node
import Stencil.Template.Segment
import Mathlib

/-!
# The cut of a source

`cutAtPair` finds the first doubled brace (`cutAtPair_eq_none_iff`, `not_infix_of_cutAtPair`) and
does not look beyond it, so `Segment.ofChars_append` cuts a concatenation part by part, unless a
doubled brace appears only at the seam. The two texts that meet at the seam become one, which is
all that `Segment.glue` does.

`Segment.wellCut_ofChars` says what a cut looks like and `Segment.spellingAll_ofChars` that it loses
nothing.
-/

namespace Stencil

/-! ## The first pair -/

section

variable {mark : Char} {cs ds before after : List Char}

theorem cutAtPair_eq_none_iff : cutAtPair mark cs = none ↔ ¬[mark, mark] <:+: cs := by
  fun_induction cutAtPair mark cs with
  | case1 a b rest hab =>
      obtain ⟨rfl, rfl⟩ := hab
      exact iff_of_false (Option.some_ne_none _) (not_not_intro ⟨[], rest, rfl⟩)
  | case2 a b rest hab ih =>
      have hfront : ¬[mark, mark] <+: a :: b :: rest := by
        rintro ⟨tail, htail⟩
        simp only [List.cons_append, List.cons.injEq] at htail
        exact hab ⟨htail.1.symm, htail.2.1.symm⟩
      have hcons : [mark, mark] <:+: a :: b :: rest ↔ [mark, mark] <:+: b :: rest := by
        rw [List.infix_cons_iff]
        exact or_iff_right hfront
      rw [Option.map_eq_none_iff, ih, hcons]
  | case3 cs hcs =>
      simp only [true_iff]
      intro hpart
      have hlen := hpart.length_le
      rcases cs with _ | ⟨a, _ | ⟨b, rest⟩⟩
      · simp at hlen
      · simp at hlen
      · exact hcs a b rest rfl

/-- What stands before a cut has no pair, not even with the mark that follows it. -/
theorem not_infix_of_cutAtPair (h : cutAtPair mark cs = some (before, after)) :
    ¬[mark, mark] <:+: before ++ [mark] := by
  fun_induction cutAtPair mark cs generalizing before with
  | case1 a b rest hab =>
      obtain ⟨rfl, rfl⟩ := Prod.mk.inj (Option.some.inj h)
      intro hpart
      simpa using hpart.length_le
  | case2 a b rest hab ih =>
      obtain ⟨⟨before', after'⟩, hcut, heq⟩ := Option.map_eq_some_iff.mp h
      obtain ⟨rfl, rfl⟩ := Prod.mk.inj heq
      rw [List.cons_append, List.infix_cons_iff]
      rintro (hfront | hpart)
      · have hb : (before' ++ [mark]).head? = some b := by
          have hrest := eq_of_cutAtPair hcut
          cases before' with
          | nil => exact congrArg some (List.cons.inj hrest).1.symm
          | cons c cs => exact congrArg some (List.cons.inj hrest).1.symm
        obtain ⟨tail, htail⟩ := hfront
        obtain ⟨ha, htail⟩ := List.cons.inj htail
        rw [← htail] at hb
        exact hab ⟨ha.symm, (Option.some.inj hb).symm⟩
      · exact ih hcut hpart
  | case3 => cases h

/-- A cut does not look beyond the pair that it finds. -/
theorem cutAtPair_append_of_some (h : cutAtPair mark cs = some (before, after))
    (ds : List Char) : cutAtPair mark (cs ++ ds) = some (before, after ++ ds) := by
  fun_induction cutAtPair mark cs generalizing before with
  | case1 a b rest hab =>
      obtain ⟨rfl, rfl⟩ := Prod.mk.inj (Option.some.inj h)
      rw [List.cons_append, List.cons_append, cutAtPair, if_pos hab]
  | case2 a b rest hab ih =>
      obtain ⟨⟨before', after'⟩, hcut, heq⟩ := Option.map_eq_some_iff.mp h
      obtain ⟨rfl, rfl⟩ := Prod.mk.inj heq
      rw [List.cons_append, List.cons_append, cutAtPair, if_neg hab, ← List.cons_append, ih hcut]
      rfl
  | case3 => cases h

/-- Without a pair in its first part a concatenation is cut in its second part, unless the pair
appears at the seam. -/
theorem cutAtPair_append_of_none (h : cutAtPair mark cs = none)
    (hseam : ¬(cs.getLast? = some mark ∧ ds.head? = some mark)) :
    cutAtPair mark (cs ++ ds) =
      (cutAtPair mark ds).map fun (before, after) => (cs ++ before, after) := by
  fun_induction cutAtPair mark cs with
  | case1 => cases h
  | case2 a b rest hab ih =>
      rw [Option.map_eq_none_iff] at h
      rw [List.getLast?_cons_cons] at hseam
      rw [List.cons_append, List.cons_append, cutAtPair, if_neg hab, ← List.cons_append, ih h hseam,
        Option.map_map]
      rfl
  | case3 cs hcs =>
      match cs, hcs with
      | [], _ =>
          cases hds : cutAtPair mark ds <;> simp [hds]
      | [a], _ =>
          cases ds with
          | nil => rfl
          | cons d ds =>
              have had : ¬(a = mark ∧ d = mark) := by simpa using hseam
              rw [List.singleton_append, cutAtPair, if_neg had]
              rfl
      | a :: b :: rest, hcs => exact absurd rfl (hcs a b rest)

theorem infix_of_getLast? (h : cs.getLast? = some mark) : [mark, mark] <:+: cs ++ [mark] := by
  obtain ⟨init, rfl⟩ := List.getLast?_eq_some_iff.mp h
  exact ⟨init, [], by simp⟩

theorem cutAtPair_append_pair (h : ¬[mark, mark] <:+: before ++ [mark]) (after : List Char) :
    cutAtPair mark (before ++ mark :: mark :: after) = some (before, after) := by
  have hnone : cutAtPair mark before = none :=
    cutAtPair_eq_none_iff.mpr fun hpart => h (hpart.trans (List.prefix_append ..).isInfix)
  rw [cutAtPair_append_of_none hnone fun hseam => h (infix_of_getLast? hseam.1)]
  simp [cutAtPair]

end

namespace Segment

/-! ## The segments of a source, one marker at a time -/

/-- The segments of what follows an opening pair of braces. -/
def ofOpened (opened : List Char) : List Segment :=
  match cutAtPair '}' opened with
  | none => [unterminated]
  | some (inner, rest) => marker (String.ofList inner) :: ofChars rest

theorem ofChars_of_none {cs : List Char} (h : cutAtPair '{' cs = none) :
    ofChars cs = ofText cs := by
  rw [ofChars]
  split
  · rfl
  · rename_i heq
    rw [h] at heq
    cases heq

theorem ofChars_of_some {cs before opened : List Char}
    (h : cutAtPair '{' cs = some (before, opened)) :
    ofChars cs = ofText before ++ ofOpened opened := by
  rw [ofChars]
  split
  · rename_i heq
    rw [h] at heq
    cases heq
  · rename_i heq
    obtain ⟨rfl, rfl⟩ := Prod.mk.inj (Option.some.inj (h.symm.trans heq))
    rw [ofOpened]
    split <;> rename_i hclose <;> rw [hclose]

theorem ofOpened_of_none {opened : List Char} (h : cutAtPair '}' opened = none) :
    ofOpened opened = [unterminated] := by
  rw [ofOpened, h]

theorem ofOpened_of_some {opened inner rest : List Char}
    (h : cutAtPair '}' opened = some (inner, rest)) :
    ofOpened opened = marker (String.ofList inner) :: ofChars rest := by
  rw [ofOpened, h]

/-- A source has no marker, or its first marker is never closed, or it goes on after that. -/
@[elab_as_elim]
theorem cut_induction {motive : List Char → Prop}
    (text : ∀ cs, cutAtPair '{' cs = none → motive cs)
    (unterminated : ∀ cs before opened, cutAtPair '{' cs = some (before, opened) →
      cutAtPair '}' opened = none → motive cs)
    (marker : ∀ cs before opened inner rest, cutAtPair '{' cs = some (before, opened) →
      cutAtPair '}' opened = some (inner, rest) → motive rest → motive cs) (cs : List Char) :
    motive cs :=
  match hopen : cutAtPair '{' cs with
  | none => text cs hopen
  | some (before, opened) =>
    match hclose : cutAtPair '}' opened with
    | none => unterminated cs before opened hopen hclose
    | some (inner, rest) =>
      marker cs before opened inner rest hopen hclose (cut_induction text unterminated marker rest)
termination_by cs.length
decreasing_by
  have := length_of_cutAtPair hopen
  have := length_of_cutAtPair hclose
  omega

@[elab_as_elim]
theorem closed_induction {motive : (cs : List Char) → unterminated ∉ ofChars cs → Prop}
    (text : ∀ cs hclosed, cutAtPair '{' cs = none → motive cs hclosed)
    (marker : ∀ cs hclosed before opened inner rest hrest,
      cutAtPair '{' cs = some (before, opened) → cutAtPair '}' opened = some (inner, rest) →
      motive rest hrest → motive cs hclosed)
    (cs : List Char) (hclosed : unterminated ∉ ofChars cs) : motive cs hclosed := by
  induction cs using cut_induction with
  | text cs hopen => exact text cs hclosed hopen
  | unterminated cs before opened hopen hclose =>
      refine absurd ?_ hclosed
      simp [ofChars_of_some hopen, ofOpened_of_none hclose]
  | marker cs before opened inner rest hopen hclose ih =>
      have hrest : Segment.unterminated ∉ ofChars rest := fun h => hclosed (by
        simp [ofChars_of_some hopen, ofOpened_of_some hclose, h])
      exact marker cs hclosed before opened inner rest hrest hopen hclose (ih hrest)

/-! ## Concatenation -/

/-- Two cuts one after the other. Texts that meet become one. -/
def glue : List Segment → List Segment → List Segment
  | [], after => after
  | [text a], text b :: after => text (a ++ b) :: after
  | segment :: before, after => segment :: glue before after

@[simp] theorem nil_glue (after : List Segment) : glue [] after = after := by
  simp [glue]

theorem marker_glue (inner : String) (before after : List Segment) :
    glue (marker inner :: before) after = marker inner :: glue before after := by
  simp [glue]

theorem cons_cons_glue (s s' : Segment) (before after : List Segment) :
    glue (s :: s' :: before) after = s :: glue (s' :: before) after := by
  simp [glue]

theorem append_marker_glue (before : List Segment) (inner : String) (between after : List Segment) :
    glue (before ++ marker inner :: between) after =
      before ++ marker inner :: glue between after := by
  induction before with
  | nil => exact marker_glue inner between after
  | cons segment before ih =>
      cases before with
      | nil => exact (cons_cons_glue ..).trans (congrArg (segment :: ·) ih)
      | cons segment' before => exact (cons_cons_glue ..).trans (congrArg (segment :: ·) ih)

theorem glue_marker (before : List Segment) (inner : String) (after : List Segment) :
    glue before (marker inner :: after) = before ++ marker inner :: after := by
  induction before with
  | nil => exact nil_glue _
  | cons segment before ih =>
      cases before with
      | nil => simp [glue]
      | cons segment' before => exact (cons_cons_glue ..).trans (congrArg (segment :: ·) ih)

theorem ofText_glue_ofOpened (cs opened : List Char) :
    glue (ofText cs) (ofOpened opened) = ofText cs ++ ofOpened opened := by
  rw [ofText, ofOpened]
  split
  · rfl
  · split <;> simp [glue]

theorem ofText_glue_ofText_append (cs ds opened : List Char) :
    glue (ofText cs) (ofText ds ++ ofOpened opened) = ofText (cs ++ ds) ++ ofOpened opened := by
  cases ds with
  | nil => simpa [ofText] using ofText_glue_ofOpened cs opened
  | cons d ds =>
      cases cs with
      | nil => rfl
      | cons c cs => simp [ofText, glue, ← String.ofList_append, -String.ofList_cons]

theorem ofText_glue_ofText (cs ds : List Char) :
    glue (ofText cs) (ofText ds) = ofText (cs ++ ds) := by
  cases cs with
  | nil => rfl
  | cons c cs =>
      cases ds with
      | nil => simp [ofText, glue]
      | cons d ds => simp [ofText, glue, ← String.ofList_append, -String.ofList_cons]

/-- Two sources one after the other are cut like each by itself: the first has no marker that is
still open, and no pair appears at the seam. -/
theorem ofChars_append {cs ds : List Char} (hclosed : unterminated ∉ ofChars cs)
    (hseam : ¬(cs.getLast? = some '{' ∧ ds.head? = some '{')) :
    ofChars (cs ++ ds) = glue (ofChars cs) (ofChars ds) := by
  induction cs, hclosed using closed_induction with
  | text cs hclosed hopen =>
      have hcut := cutAtPair_append_of_none hopen hseam
      rw [ofChars_of_none hopen]
      cases hds : cutAtPair '{' ds with
      | none =>
          rw [hds] at hcut
          rw [ofChars_of_none hcut, ofChars_of_none hds, ofText_glue_ofText]
      | some cut =>
          rw [hds] at hcut
          rw [ofChars_of_some hcut, ofChars_of_some hds, ofText_glue_ofText_append]
  | marker cs hclosed before opened inner rest hrest hopen hclose ih =>
      -- What follows the marker has the same seam, for the marker ends in a closing brace.
      have hlast : rest.getLast? = some '{' → cs.getLast? = some '{' := fun h => by
        rw [eq_of_cutAtPair hopen, eq_of_cutAtPair hclose]
        simp [List.getLast?_append, List.getLast?_cons, h]
      rw [ofChars_of_some (cutAtPair_append_of_some hopen ds),
        ofOpened_of_some (cutAtPair_append_of_some hclose ds), ofChars_of_some hopen,
        ofOpened_of_some hclose, append_marker_glue,
        ih fun h => hseam ⟨hlast h.1, h.2⟩]

/-- A brace at the end of a source goes into the marker that follows it. -/
theorem mem_ofChars_of_getLast? {cs inner : List Char} (hclosed : unterminated ∉ ofChars cs)
    (hlast : cs.getLast? = some '{') (hinner : ¬['}', '}'] <:+: inner ++ ['}']) (rest : List Char) :
    marker (String.ofList ('{' :: inner)) ∈
      ofChars (cs ++ '{' :: '{' :: (inner ++ '}' :: '}' :: rest)) := by
  induction cs, hclosed using closed_induction with
  | text cs hclosed hopen =>
      obtain ⟨init, rfl⟩ := List.getLast?_eq_some_iff.mp hlast
      have hcut := cutAtPair_append_pair (cutAtPair_eq_none_iff.mp hopen)
        ('{' :: inner ++ '}' :: '}' :: rest)
      have hinner' : ¬['}', '}'] <:+: '{' :: inner ++ ['}'] := by
        rw [List.cons_append, List.infix_cons_iff]
        rintro (hfront | hpart)
        · obtain ⟨tail, htail⟩ := hfront
          exact absurd (List.cons.inj htail).1 (by decide)
        · exact hinner hpart
      rw [show init ++ ['{'] ++ '{' :: '{' :: (inner ++ '}' :: '}' :: rest) =
        init ++ '{' :: '{' :: ('{' :: inner ++ '}' :: '}' :: rest) by simp, ofChars_of_some hcut,
        ofOpened_of_some (cutAtPair_append_pair hinner' rest)]
      simp
  | marker cs hclosed before opened name after hafter hopen hclose ih =>
      have hlast' : after.getLast? = some '{' := by
        rw [eq_of_cutAtPair hopen, eq_of_cutAtPair hclose] at hlast
        cases hafter : after.getLast? <;>
          simp_all [List.getLast?_append, List.getLast?_cons]
      rw [ofChars_of_some (cutAtPair_append_of_some hopen _),
        ofOpened_of_some (cutAtPair_append_of_some hclose _)]
      exact List.mem_append_right _ (List.mem_cons_of_mem _ (ih hlast'))

/-! ## What a cut looks like -/

def spelling : Segment → String
  | text content => content
  | marker inner => markerText inner
  | unterminated => ""

def spellingAll (segments : List Segment) : String := String.join (segments.map spelling)

@[simp] theorem spellingAll_nil : spellingAll [] = "" := String.join_nil

@[simp] theorem spellingAll_cons (segment : Segment) (rest : List Segment) :
    spellingAll (segment :: rest) = segment.spelling ++ spellingAll rest := String.join_cons

@[simp] theorem spellingAll_append (before after : List Segment) :
    spellingAll (before ++ after) = spellingAll before ++ spellingAll after := by
  rw [spellingAll, List.map_append, String.join_append]
  rfl

theorem spellingAll_ofText (cs : List Char) : spellingAll (ofText cs) = String.ofList cs := by
  cases cs <;> simp [ofText, spelling]

/-- Where all markers are closed the cut loses nothing. -/
theorem spellingAll_ofChars {cs : List Char} (hclosed : unterminated ∉ ofChars cs) :
    spellingAll (ofChars cs) = String.ofList cs := by
  induction cs, hclosed using closed_induction with
  | text cs hclosed hopen => rw [ofChars_of_none hopen, spellingAll_ofText]
  | marker cs hclosed before opened inner rest hrest hopen hclose ih =>
      rw [ofChars_of_some hopen, ofOpened_of_some hclose, spellingAll_append, spellingAll_cons,
        spellingAll_ofText, ih, eq_of_cutAtPair hopen, eq_of_cutAtPair hclose]
      apply String.toList_injective
      simp [spelling, markerText]

def IsText : Segment → Prop
  | text _ => True
  | _ => False

/-- A text is not empty and holds no opening pair, and the first closing pair after a marker's
opening is its end. -/
def Sound : Segment → Prop
  | text content => content ≠ "" ∧ ¬['{', '{'] <:+: content.toList
  | marker inner => ¬['}', '}'] <:+: inner.toList ++ ['}']
  | unterminated => True

/-- Texts do not meet, and a marker does not begin with the last brace of the text before it. -/
def Meets : Segment → Segment → Prop
  | text content, after => ¬after.IsText ∧ content.toList.getLast? ≠ some '{'
  | _, _ => True

structure WellCut (segments : List Segment) : Prop where
  sound : ∀ segment ∈ segments, segment.Sound
  meets : segments.IsChain Meets

theorem WellCut.part {segments part : List Segment} (h : WellCut segments)
    (hpart : part <:+: segments) : WellCut part :=
  ⟨fun segment hmem => h.sound segment (hpart.subset hmem), h.meets.infix hpart⟩

theorem WellCut.nil : WellCut [] := ⟨by simp, .nil⟩

theorem WellCut.cons {segment : Segment} {segments : List Segment} (hsound : segment.Sound)
    (hmeets : ∀ next ∈ segments.head?, segment.Meets next) (h : WellCut segments) :
    WellCut (segment :: segments) :=
  ⟨List.forall_mem_cons.mpr ⟨hsound, h.sound⟩, List.isChain_cons.mpr ⟨hmeets, h.meets⟩⟩

theorem wellCut_ofText {cs : List Char} (h : ¬['{', '{'] <:+: cs) : WellCut (ofText cs) := by
  rw [ofText]
  split
  · exact ⟨by simp, .nil⟩
  · refine ⟨?_, .singleton _⟩
    simp_all [Sound]

theorem WellCut.ofText_append {before : List Char} {segments : List Segment}
    (hbefore : ¬['{', '{'] <:+: before ++ ['{']) (h : WellCut segments)
    (hhead : ∀ segment ∈ segments.head?, ¬segment.IsText) :
    WellCut (ofText before ++ segments) := by
  have htext := wellCut_ofText fun hpart => hbefore (hpart.trans (List.prefix_append ..).isInfix)
  refine ⟨fun segment hmem => ?_, ?_⟩
  · rcases List.mem_append.mp hmem with hmem | hmem
    · exact htext.sound segment hmem
    · exact h.sound segment hmem
  · refine List.isChain_append.mpr ⟨htext.meets, h.meets, fun segment hmem after hafter => ?_⟩
    rw [ofText] at hmem
    split at hmem
    · cases hmem
    · obtain rfl := Option.some.inj hmem
      refine ⟨hhead after hafter, fun hlast => hbefore (infix_of_getLast? ?_)⟩
      rwa [String.toList_ofList] at hlast

theorem wellCut_ofChars (cs : List Char) : WellCut (ofChars cs) := by
  induction cs using cut_induction with
  | text cs hopen =>
      rw [ofChars_of_none hopen]
      exact wellCut_ofText (cutAtPair_eq_none_iff.mp hopen)
  | unterminated cs before opened hopen hclose =>
      rw [ofChars_of_some hopen, ofOpened_of_none hclose]
      refine WellCut.ofText_append (not_infix_of_cutAtPair hopen) ⟨?_, .singleton _⟩ ?_
      · simp [Sound]
      · simp [IsText]
  | marker cs before opened inner rest hopen hclose ih =>
      rw [ofChars_of_some hopen, ofOpened_of_some hclose]
      refine WellCut.ofText_append (not_infix_of_cutAtPair hopen)
        (.cons ?_ (fun _ _ => trivial) ih) ?_
      · simpa [Sound] using not_infix_of_cutAtPair hclose
      · simp [IsText]

end Segment

end Stencil
