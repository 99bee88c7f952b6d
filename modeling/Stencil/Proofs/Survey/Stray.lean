import Stencil.Proofs.Survey.Occurrence

/-!
# Stray braces and the verdict of a survey

The last thing that a survey reports is the first doubled opening brace that is in no marker. It
looks for it in the gaps only; that it finds it follows from where the markers are
(`stray_of_unterminatedAt?`, `exists_unterminatedAt?_of_stray`). With the counts of openers and
closers this is all that a survey says, for every source, whether it compiles or not
(`Validation.errors_exact`).
-/

namespace Stencil

namespace Survey

variable {cs rest inner before : List Char} {c : Char}

/-! ## Stray braces -/

/-- After `before` there is a doubled opening brace, and neither of its bytes is in a marker. -/
structure Stray (cs before : List Char) : Prop where
  spelled : ∃ after, cs = before ++ '{' :: '{' :: after
  first_outside : ∀ m : Occurrence cs, ¬m.Contains (byteSize before)
  second_outside : ∀ m : Occurrence cs, ¬m.Contains (byteSize before + 1)

theorem byteSize_pos (h : cs ≠ []) : 0 < byteSize cs := by
  cases cs with
  | nil => exact absurd rfl h
  | cons c cs => exact Nat.add_pos_left c.utf8Size_pos _

/-- Where a text has no markers but those of its rest and those that end before it, the rest of the
text has the same stray braces as the text itself. -/
theorem stray_append_iff {first : List Char} (h : cs = first ++ rest)
    (hall : ∀ m : Occurrence cs,
      m.stop ≤ byteSize first ∨ ∃ m' : Occurrence rest, m'.shift first h = m) :
    Stray cs (first ++ before) ↔ Stray rest before := by
  have hcontains : ∀ place, (∀ m : Occurrence cs, ¬m.Contains (byteSize first + place)) ↔
      ∀ m : Occurrence rest, ¬m.Contains place := by
    intro place
    constructor
    · intro houtside m
      rw [← m.contains_shift_iff h]
      exact houtside _
    · intro houtside m
      rcases hall m with hstop | ⟨m', rfl⟩
      · rintro ⟨-, hlt⟩
        omega
      · rw [m'.contains_shift_iff h]
        exact houtside m'
  have hspelled : ∀ after, cs = first ++ before ++ '{' :: '{' :: after ↔
      rest = before ++ '{' :: '{' :: after := by
    intro after
    rw [h, List.append_assoc, List.append_cancel_left_eq]
  constructor
  · rintro ⟨⟨after, hcs⟩, hfirst, hsecond⟩
    rw [byteSize_append] at hfirst hsecond
    exact ⟨⟨after, (hspelled after).mp hcs⟩, (hcontains _).mp hfirst, (hcontains _).mp hsecond⟩
  · rintro ⟨⟨after, hrest⟩, hfirst, hsecond⟩
    refine ⟨⟨after, (hspelled after).mpr hrest⟩, ?_, ?_⟩
    · rw [byteSize_append]
      exact (hcontains _).mpr hfirst
    · rw [byteSize_append, Nat.add_assoc]
      exact (hcontains _).mpr hsecond

theorem stray_marker_iff (h : markerHere? cs = some (inner, rest)) :
    Stray cs (markerChars inner ++ before) ↔ Stray rest before := by
  refine stray_append_iff (eq_markerChars_append h) fun m => ?_
  rcases m.eq_here_or_shift h with rfl | hshift
  · exact .inl (Occurrence.stop_here h).le
  · exact .inr hshift

theorem stray_cons_iff (h : markerHere? (c :: rest) = none) :
    Stray (c :: rest) (c :: before) ↔ Stray rest before :=
  stray_append_iff (show c :: rest = [c] ++ rest from rfl) fun m =>
    .inr (m.exists_shift_of_none h)

/-- A stray brace of a text that starts with a marker comes after it. -/
theorem Stray.exists_after_marker (hmarker : markerHere? cs = some (inner, rest))
    (h : Stray cs before) :
    ∃ between, before = markerChars inner ++ between ∧ Stray rest between := by
  obtain ⟨after, hspelled⟩ := h.spelled
  have houtside := h.first_outside (Occurrence.here hmarker)
  have hprefix : ∃ between, before = markerChars inner ++ between := by
    rcases List.append_eq_append_iff.mp ((eq_markerChars_append hmarker).symm.trans hspelled) with
      ⟨between, hbefore, -⟩ | ⟨left, hleft, -⟩
    · exact ⟨between, hbefore⟩
    · have hnil : left = [] := by
        by_contra hne
        have hsize := congrArg byteSize hleft
        rw [byteSize_append, ← Occurrence.stop_here hmarker] at hsize
        have hpos := byteSize_pos hne
        exact houtside ⟨Nat.zero_le _, by omega⟩
      exact ⟨[], by rw [hleft, hnil, List.append_nil, List.append_nil]⟩
  obtain ⟨between, rfl⟩ := hprefix
  exact ⟨between, rfl, (stray_marker_iff hmarker).mp h⟩

/-- Where no marker starts, the first brace is stray if one follows that starts no marker either. -/
theorem stray_nil_iff (h : markerHere? (c :: rest) = none) :
    Stray (c :: rest) [] ↔ c = '{' ∧ rest.head? = some '{' ∧ markerHere? rest = none := by
  constructor
  · rintro ⟨⟨after, hspelled⟩, -, hsecond⟩
    obtain ⟨rfl, rfl⟩ := List.cons.inj hspelled
    refine ⟨rfl, rfl, ?_⟩
    rw [Option.eq_none_iff_forall_ne_some]
    rintro ⟨inner, rest⟩ hmarker
    refine hsecond ((Occurrence.here hmarker).shift ['{'] rfl) ?_
    exact ((Occurrence.here hmarker).contains_shift_iff rfl).mpr
      ⟨Nat.le_refl _, (Occurrence.here hmarker).start_lt_stop⟩
  · rintro ⟨rfl, hhead, hnone⟩
    obtain ⟨after, rfl⟩ := List.head?_eq_some_iff.mp hhead
    have hstart : ∀ m : Occurrence ('{' :: '{' :: after), 1 < m.start := by
      intro m
      obtain ⟨m', rfl⟩ := m.exists_shift_of_none h
      have hbefore : m'.before ≠ [] := by
        intro hnil
        rw [m'.markerHere?_of_before hnil] at hnone
        cases hnone
      rw [Occurrence.start_shift]
      exact Nat.add_lt_add_left (byteSize_pos hbefore) 1
    refine ⟨⟨after, rfl⟩, ?_, ?_⟩
    · rintro m ⟨hle, -⟩
      exact absurd (hstart m) (Nat.not_lt.mpr (Nat.le_succ_of_le hle))
    · rintro m ⟨hle, -⟩
      exact absurd (hstart m) (Nat.not_lt.mpr hle)

/-! ## What a survey finds -/

/-- The first gap begins as the text does, unless the text begins with a marker. -/
theorem head?_eq_of_ofChars {gap : List Char} {after : List Piece}
    (h : Piece.ofChars cs = .gap gap :: after) :
    gap.head? = some '{' ↔ cs.head? = some '{' ∧ markerHere? cs = none := by
  rw [Piece.ofChars] at h
  split at h
  · rename_i hmarker
    obtain ⟨hgap, -⟩ := List.cons.inj h
    obtain rfl := Piece.gap.inj hgap
    simp [hmarker]
  · rename_i hmarker
    cases cs with
    | nil =>
        obtain ⟨hgap, -⟩ := List.cons.inj h
        obtain rfl := Piece.gap.inj hgap
        simp
    | cons c rest =>
        obtain ⟨content, pieces, hpieces⟩ := Piece.exists_ofChars_eq_gap rest
        dsimp only at h
        rw [hpieces, Piece.extend] at h
        obtain ⟨hgap, -⟩ := List.cons.inj h
        obtain rfl := Piece.gap.inj hgap
        simp [hmarker]

/-- A character in front of a gap is passed, unless a doubled opening brace comes about. -/
theorem unterminatedAt?_extend (offset : Nat) (gap : List Char) (after : List Piece) :
    unterminatedAt? offset (Piece.extend c (.gap gap :: after)) =
      if c = '{' ∧ gap.head? = some '{' then some offset
      else unterminatedAt? (offset + c.utf8Size) (.gap gap :: after) := by
  rw [Piece.extend, unterminatedAt?]
  cases gap with
  | nil =>
      rw [if_neg (by simp)]
      rfl
  | cons d gap =>
      have hsize : byteSize (c :: d :: gap) = c.utf8Size + byteSize (d :: gap) := rfl
      simp only [List.head?_cons, Option.some_inj]
      rw [openBraces?]
      by_cases hpair : c = '{' ∧ d = '{'
      · rw [if_pos hpair, if_pos hpair]
        rfl
      · rw [if_neg hpair, if_neg hpair, unterminatedAt?]
        cases openBraces? (d :: gap) with
        | none => simp only [Option.map_none, hsize, Nat.add_assoc]
        | some n => simp only [Option.map_some, Nat.add_assoc]

theorem unterminatedAt?_cons (h : markerHere? (c :: rest) = none) (offset : Nat) :
    Stray (c :: rest) [] ∧
        unterminatedAt? offset (Piece.extend c (Piece.ofChars rest)) = some offset ∨
      ¬Stray (c :: rest) [] ∧
        unterminatedAt? offset (Piece.extend c (Piece.ofChars rest)) =
          unterminatedAt? (offset + c.utf8Size) (Piece.ofChars rest) := by
  obtain ⟨gap, after, hgap⟩ := Piece.exists_ofChars_eq_gap rest
  rw [stray_nil_iff h, ← head?_eq_of_ofChars hgap, hgap, unterminatedAt?_extend]
  split
  · rename_i hstray
    exact .inl ⟨hstray, rfl⟩
  · rename_i hstray
    exact .inr ⟨hstray, rfl⟩

theorem stray_of_unterminatedAt? {offset place : Nat}
    (h : unterminatedAt? offset (Piece.ofChars cs) = some place) :
    ∃ before, Stray cs before ∧ place = offset + byteSize before := by
  fun_induction Piece.ofChars cs generalizing offset with
  | case1 cs inner rest hmarker ih =>
      obtain ⟨before, hstray, rfl⟩ := ih h
      refine ⟨markerChars inner ++ before, (stray_marker_iff hmarker).mpr hstray, ?_⟩
      rw [byteSize_append, byteSize_markerChars]
      have hnil : byteSize [] = 0 := rfl
      omega
  | case2 => cases h
  | case3 c rest hmarker ih =>
      rcases unterminatedAt?_cons hmarker offset with ⟨hstray, hfound⟩ | ⟨-, hpassed⟩
      · rw [hfound] at h
        obtain rfl := Option.some.inj h
        exact ⟨[], hstray, rfl⟩
      · rw [hpassed] at h
        obtain ⟨before, hstray, rfl⟩ := ih h
        exact ⟨c :: before, (stray_cons_iff hmarker).mpr hstray, Nat.add_assoc ..⟩

/-- A survey does not go past a stray brace. -/
theorem exists_unterminatedAt?_of_stray (h : Stray cs before) (offset : Nat) :
    ∃ place, unterminatedAt? offset (Piece.ofChars cs) = some place ∧
      place ≤ offset + byteSize before := by
  fun_induction Piece.ofChars cs generalizing offset before with
  | case1 cs inner rest hmarker ih =>
      obtain ⟨between, rfl, hrest⟩ := h.exists_after_marker hmarker
      obtain ⟨place, hplace, hle⟩ := ih hrest (offset + byteSize [] + byteSize inner + 4)
      refine ⟨place, hplace, ?_⟩
      rw [byteSize_append, byteSize_markerChars]
      have hnil : byteSize [] = 0 := rfl
      omega
  | case2 =>
      obtain ⟨after, hspelled⟩ := h.spelled
      simp at hspelled
  | case3 c rest hmarker ih =>
      rcases unterminatedAt?_cons hmarker offset with ⟨-, hfound⟩ | ⟨hnot, hpassed⟩
      · exact ⟨offset, hfound, Nat.le_add_right _ _⟩
      · cases before with
        | nil => exact absurd h hnot
        | cons d before =>
            obtain ⟨after, hspelled⟩ := h.spelled
            obtain ⟨rfl, -⟩ := List.cons.inj hspelled
            obtain ⟨place, hplace, hle⟩ := ih ((stray_cons_iff hmarker).mp h) (offset + c.utf8Size)
            rw [hpassed]
            exact ⟨place, hplace, hle.trans_eq (Nat.add_assoc ..)⟩

/-- A survey finds the first stray brace. -/
theorem unterminatedAt?_eq_some_iff {place : Nat} :
    unterminatedAt? 0 (Piece.ofChars cs) = some place ↔
      ∃ before, Stray cs before ∧
        (∀ before', Stray cs before' → byteSize before ≤ byteSize before') ∧
        byteSize before = place := by
  constructor
  · intro h
    obtain ⟨before, hstray, hplace⟩ := stray_of_unterminatedAt? h
    refine ⟨before, hstray, ?_, ?_⟩
    · intro before' hstray'
      obtain ⟨place', hplace', hle⟩ := exists_unterminatedAt?_of_stray hstray' 0
      rw [h] at hplace'
      obtain rfl := Option.some.inj hplace'
      omega
    · omega
  · rintro ⟨before, hstray, hfirst, rfl⟩
    obtain ⟨place, hplace, hle⟩ := exists_unterminatedAt?_of_stray hstray 0
    obtain ⟨before', hstray', rfl⟩ := stray_of_unterminatedAt? hplace
    have hge := hfirst before' hstray'
    rw [hplace]
    exact congrArg some (by omega)

theorem unterminatedAt?_eq_none_iff :
    unterminatedAt? 0 (Piece.ofChars cs) = none ↔ ∀ before, ¬Stray cs before := by
  constructor
  · intro h before hstray
    obtain ⟨place, hplace, -⟩ := exists_unterminatedAt?_of_stray hstray 0
    rw [h] at hplace
    cases hplace
  · intro h
    rw [Option.eq_none_iff_forall_ne_some]
    intro place hplace
    obtain ⟨before, hstray, -⟩ := stray_of_unterminatedAt? hplace
    exact h before hstray

end Survey

/-! ## Line and column -/

namespace Position

open Survey

theorem locate_byteSize {text : String} {before after : List Char}
    (h : text.toList = before ++ after) :
    locate text (byteSize before) =
      ⟨before.count '\n' + 1, (before.reverse.takeWhile (· ≠ '\n')).length + 1⟩ := by
  rw [locate, h, byteSize_eq_utf8Len, before_append_utf8Len, foldl_next_start]

end Position

/-! ## The verdict -/

namespace Validation

open Survey

variable {source : String}

/-- What is said of a kind of block with so many openers and closers. -/
def imbalance? (kind : BlockKind) (opened closed : Nat) : Option String :=
  if closed < opened then
    some ("unclosed " ++ kind.keyword ++ ": " ++ toString (opened - closed) ++ " " ++
      kind.openerText ++ " without matching " ++ kind.closerText)
  else if opened < closed then
    some ("unexpected " ++ kind.closerText ++ ": " ++ toString (closed - opened) ++
      " closing tag(s) without a matching " ++ kind.openerText)
  else none

/-- What is said of the kinds of block, each with its markers counted wherever they are. -/
noncomputable def imbalances (source : String) : List String :=
  BlockKind.all.filterMap fun kind =>
    imbalance? kind (Nat.card {m : Occurrence source.toList // Opens kind m.inner})
      (Nat.card {m : Occurrence source.toList // Closes kind m.inner})

/-- What is said of the stray brace after `before`. -/
def openTag (before : List Char) : String :=
  "unterminated tag at line " ++ toString (before.count '\n' + 1) ++ ", column " ++
    toString ((before.reverse.takeWhile (· ≠ '\n')).length + 1)

theorem map_message_balance (source : String) (kind : BlockKind) :
    (balance source kind).map ValidationError.message =
      imbalance? kind (openerCount kind source) (closerCount kind source) := by
  unfold balance imbalance?
  dsimp only
  by_cases hclosed : closerCount kind source < openerCount kind source
  · rw [if_pos hclosed, if_pos hclosed]
    exact congrArg some (ValidationError.message_unclosed ..)
  · rw [if_neg hclosed, if_neg hclosed]
    by_cases hopened : openerCount kind source < closerCount kind source
    · rw [if_pos hopened, if_pos hopened]
      exact congrArg some (ValidationError.message_unexpected ..)
    · rw [if_neg hopened, if_neg hopened]
      rfl

theorem filterMap_balance (source : String) :
    (BlockKind.all.filterMap (balance source)).map ValidationError.message =
      imbalances source := by
  rw [List.map_filterMap, imbalances]
  refine congrArg (List.filterMap · _) (funext fun kind => ?_)
  rw [map_message_balance, openerCount_eq_card, closerCount_eq_card]

theorem errors_of_first {before : List Char} (h : Stray source.toList before)
    (hfirst : ∀ before', Stray source.toList before' → byteSize before ≤ byteSize before') :
    (ofSource source).errors = imbalances source ++ [openTag before] := by
  obtain ⟨after, hspelled⟩ := h.spelled
  have hfound : unterminatedAt? 0 (Piece.ofSource source) = some (byteSize before) :=
    unterminatedAt?_eq_some_iff.mpr ⟨before, h, hfirst, rfl⟩
  rw [ofSource, Survey.errors, hfound, List.map_append, filterMap_balance, Option.map_some,
    Position.locate_byteSize hspelled]
  rfl

theorem errors_of_none (h : ∀ before, ¬Stray source.toList before) :
    (ofSource source).errors = imbalances source := by
  have hfound : unterminatedAt? 0 (Piece.ofSource source) = none :=
    unterminatedAt?_eq_none_iff.mpr h
  rw [ofSource, Survey.errors, hfound, List.map_append, filterMap_balance]
  exact List.append_nil _

/-- What a survey reports, for every source. Its markers do not overlap. Of each kind of block the
openers and closers are counted among all markers, and what is too many of either is reported. Then
comes the first stray brace, if there is one. -/
theorem errors_exact (source : String) :
    (∀ m m' : Occurrence source.toList, m ≠ m' → m.stop ≤ m'.start ∨ m'.stop ≤ m.start) ∧
    (∀ before, Stray source.toList before →
      (∀ before', Stray source.toList before' → byteSize before ≤ byteSize before') →
      (ofSource source).errors = imbalances source ++ [openTag before]) ∧
    ((∀ before, ¬Stray source.toList before) → (ofSource source).errors = imbalances source) ∧
    ((ofSource source).isValid = true ↔ (ofSource source).errors = []) :=
  ⟨fun _ _ => Occurrence.disjoint_of_ne, fun _ => errors_of_first, errors_of_none,
    List.isEmpty_iff⟩

/-- Runs of three braces, where the marker starts at the second one. In the first text a marker that
is cut off stands between an opener and a closer of another kind. -/
theorem errors_exact_runs :
    (∃ source, source = "é\n\x7b\x7b\x7b#if\u2003x\x7d\x7d\x7b\x7ba \x7b\x7b/each\x7d\x7d" ∧
      (∃ m m' : Occurrence source.toList, m ≠ m' ∧ (m.stop ≤ m'.start ∨ m'.stop ≤ m.start)) ∧
      ∃ before, Stray source.toList before ∧
        (∀ before', Stray source.toList before' → byteSize before ≤ byteSize before') ∧
        imbalances source ++ [openTag before] =
          ["unclosed if: 1 \x7b\x7b#if\x7d\x7d without matching \x7b\x7b/if\x7d\x7d",
            "unexpected \x7b\x7b/each\x7d\x7d: 1 closing tag(s) without a matching " ++
              "\x7b\x7b#each\x7d\x7d",
            "unterminated tag at line 2, column 11"]) ∧
    ∃ source, source = "\x7b\x7b\x7ba\x7d\x7d\x7d" ∧
      (∀ before, ¬Stray source.toList before) ∧ imbalances source = [] ∧
      (ofSource source).isValid = true := by
  refine ⟨⟨_, rfl, ?_, ?_⟩, ⟨_, rfl, ?_⟩⟩
  · let opener : Occurrence
        "é\n\x7b\x7b\x7b#if\u2003x\x7d\x7d\x7b\x7ba \x7b\x7b/each\x7d\x7d".toList :=
      ⟨"é\n\x7b".toList, "#if\u2003x".toList, "\x7b\x7ba \x7b\x7b/each\x7d\x7d".toList,
        by simp [isBrace], by cbv⟩
    let closer : Occurrence
        "é\n\x7b\x7b\x7b#if\u2003x\x7d\x7d\x7b\x7ba \x7b\x7b/each\x7d\x7d".toList :=
      ⟨"é\n\x7b\x7b\x7b#if\u2003x\x7d\x7d\x7b\x7ba ".toList, "/each".toList, [],
        by simp [isBrace], by cbv⟩
    have hne : opener ≠ closer := by
      intro heq
      have hinner : "#if\u2003x".toList = "/each".toList := congrArg Occurrence.inner heq
      revert hinner
      decide
    exact ⟨opener, closer, hne, (errors_exact _).1 opener closer hne⟩
  · have hsurvey : Survey.errors
        "é\n\x7b\x7b\x7b#if\u2003x\x7d\x7d\x7b\x7ba \x7b\x7b/each\x7d\x7d" =
        [.unclosed .conditional 1, .unexpected .iteration 1, .unterminated ⟨2, 11⟩] := by
      cbv
    have hfound : unterminatedAt? 0 (Piece.ofSource
        "é\n\x7b\x7b\x7b#if\u2003x\x7d\x7d\x7b\x7ba \x7b\x7b/each\x7d\x7d") = some 15 := by
      cbv
    obtain ⟨before, hstray, hfirst, -⟩ := unterminatedAt?_eq_some_iff.mp hfound
    refine ⟨before, hstray, hfirst, ?_⟩
    rw [← (errors_exact _).2.1 before hstray hfirst, ofSource, hsurvey]
    rfl
  · have hfound : unterminatedAt? 0 (Piece.ofSource "\x7b\x7b\x7ba\x7d\x7d\x7d") = none := by
      cbv
    have hsurvey : Survey.errors "\x7b\x7b\x7ba\x7d\x7d\x7d" = [] := by
      cbv
    have hnone := unterminatedAt?_eq_none_iff.mp hfound
    obtain ⟨-, -, hcounts, hvalid⟩ := errors_exact "\x7b\x7b\x7ba\x7d\x7d\x7d"
    have herrors : (ofSource "\x7b\x7b\x7ba\x7d\x7d\x7d").errors = [] := by
      rw [ofSource, hsurvey]
      rfl
    exact ⟨hnone, (hcounts hnone).symm.trans herrors, hvalid.mpr herrors⟩

end Validation

end Stencil
