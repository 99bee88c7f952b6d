import Stencil.Template.Marker
import Mathlib

/-!
# What a marker says

`Marker.read` inverted: which texts between braces are read as an interpolation, as an opener and
as a closer. An opener is the keyword, one separator, any number of blanks and the path
(`Marker.read_eq_opener_iff`); nothing may stand between the path and the braces.
-/

namespace Stencil

/-! ## Character classes -/

namespace Text

theorem bounds_of_isWordChar {c : Char} (h : isWordChar c = true) :
    48 ≤ c.toNat ∧ c.toNat ≤ 122 := by
  simp only [isWordChar, Char.isAlphanum, Char.isAlpha, Char.isUpper, Char.isLower, Char.isDigit,
    Bool.or_eq_true, Bool.and_eq_true, decide_eq_true_eq, UInt32.le_iff_toNat_le] at h
  change (((65 ≤ c.toNat ∧ c.toNat ≤ 90) ∨ (97 ≤ c.toNat ∧ c.toNat ≤ 122)) ∨
    (48 ≤ c.toNat ∧ c.toNat ≤ 57)) ∨ c = '_' at h
  rcases h with h | rfl
  · omega
  · decide

theorem isBlank_eq_false_of_isWordChar {c : Char} (h : isWordChar c = true) :
    isBlank c = false := by
  have hbounds := bounds_of_isWordChar h
  simp only [isBlank, blankRanges, List.any_cons, List.any_nil, Bool.or_false, Bool.or_eq_false_iff,
    Bool.and_eq_false_iff, decide_eq_false_iff_not]
  omega

theorem ne_brace_of_isWordChar {c : Char} (h : isWordChar c = true) : c ≠ '{' ∧ c ≠ '}' := by
  refine ⟨?_, ?_⟩ <;> rintro rfl <;> exact absurd h (by decide)

theorem ne_brace_of_isBlank {c : Char} (h : isBlank c = true) : c ≠ '{' ∧ c ≠ '}' := by
  refine ⟨?_, ?_⟩ <;> rintro rfl <;> exact absurd h (by decide)

theorem trimStart_eq_self {cs : List Char} (h : ∀ c ∈ cs, isBlank c = false) :
    trimStart cs = cs := by
  cases cs with
  | nil => rfl
  | cons c cs => exact List.dropWhile_cons_of_neg (by simp [h c (List.mem_cons_self ..)])

end Text

namespace Path

theorem exists_of_isValid {path : String} (h : isValid path = true) :
    ∃ c cs, path.toList = c :: cs ∧ (c = '@' ∨ Text.isWordChar c = true) ∧
      ∀ d ∈ cs, isInnerChar d = true := by
  rw [isValid] at h
  split at h
  · cases h
  · rename_i c cs hpath
    simp only [Bool.and_eq_true, Bool.or_eq_true, decide_eq_true_eq, List.all_eq_true] at h
    exact ⟨c, cs, hpath, h.1, h.2⟩

theorem ne_brace_of_isValid {path : String} (h : isValid path = true) :
    ∀ c ∈ path.toList, c ≠ '{' ∧ c ≠ '}' := by
  obtain ⟨c, cs, hpath, hc, hcs⟩ := exists_of_isValid h
  rw [hpath]
  intro d hmem
  rcases List.mem_cons.mp hmem with rfl | hmem
  · refine ⟨?_, ?_⟩ <;> rintro rfl <;> revert hc <;> decide
  · have hd := hcs d hmem
    refine ⟨?_, ?_⟩ <;> rintro rfl <;> revert hd <;> decide

/-- There is no blank in a path. -/
theorem isBlank_eq_false_of_isValid {path : String} (h : isValid path = true) :
    ∀ c ∈ path.toList, Text.isBlank c = false := by
  obtain ⟨c, cs, hpath, hc, hcs⟩ := exists_of_isValid h
  rw [hpath]
  intro d hmem
  rcases List.mem_cons.mp hmem with rfl | hmem
  · rcases hc with rfl | hc
    · decide
    · exact Text.isBlank_eq_false_of_isWordChar hc
  · have hd := hcs d hmem
    simp only [isInnerChar, Bool.or_eq_true, decide_eq_true_eq] at hd
    rcases hd with rfl | hd
    · decide
    · exact Text.isBlank_eq_false_of_isWordChar hd

end Path

theorem BlockKind.not_isSeparator_of_mem_keyword (kind : BlockKind) :
    ∀ c ∈ kind.keyword.toList, (!Text.isSeparator c) = true :=
  List.all_eq_true.mp (by cases kind <;> rfl)

theorem BlockKind.isWordChar_of_mem_keyword (kind : BlockKind) :
    ∀ c ∈ kind.keyword.toList, Text.isWordChar c = true :=
  List.all_eq_true.mp (by cases kind <;> rfl)

/-- What stands between the braces of an opener. -/
def BlockKind.openerInner (kind : BlockKind) (separator : Char) (blanks : List Char)
    (path : String) : String :=
  "#" ++ kind.keyword ++ String.ofList (separator :: blanks) ++ path

namespace Marker

theorem openerParts_append {keyword : List Char} {separator : Char}
    (hkeyword : ∀ c ∈ keyword, (!Text.isSeparator c) = true)
    (hseparator : Text.isSeparator separator = true) (rest : List Char) :
    openerParts (keyword ++ separator :: rest) =
      (String.ofList keyword, String.ofList (Text.trimStart rest)) := by
  have htake :
      (keyword ++ separator :: rest).takeWhile (fun c => !Text.isSeparator c) = keyword := by
    rw [List.takeWhile_append_of_pos hkeyword, List.takeWhile_cons_of_neg (by simp [hseparator]),
      List.append_nil]
  have hdrop : (keyword ++ separator :: rest).dropWhile (fun c => !Text.isSeparator c) =
      separator :: rest := by
    rw [List.dropWhile_append_of_pos hkeyword, List.dropWhile_cons_of_neg (by simp [hseparator])]
  simp [openerParts, htake, hdrop]

/-- The parts of an opener with a path make it up, but for a separator and blanks. -/
theorem eq_of_openerParts {cs : List Char} (h : Path.isValid (openerParts cs).2 = true) :
    ∃ separator blanks, Text.isSeparator separator = true ∧ blanks.all Text.isBlank = true ∧
      cs = (openerParts cs).1.toList ++ separator :: blanks ++ (openerParts cs).2.toList := by
  have hcs := List.takeWhile_append_dropWhile (p := fun c => !Text.isSeparator c) (l := cs)
  cases hdrop : cs.dropWhile (fun c => !Text.isSeparator c) with
  | nil =>
      simp [openerParts, hdrop, Text.trimStart, Path.isValid] at h
  | cons separator rest =>
      have hseparator : Text.isSeparator separator = true := by
        have := List.head?_dropWhile_not (fun c => !Text.isSeparator c) cs
        simpa [hdrop] using this
      refine ⟨separator, rest.takeWhile Text.isBlank, hseparator, List.all_takeWhile, ?_⟩
      simp [openerParts, hdrop, Text.trimStart]
      rw [← hdrop, List.takeWhile_append_dropWhile]

theorem readOpener_eq_ok_iff {cs : List Char} {marker : Marker} :
    readOpener cs = .ok marker ↔ ∃ kind, BlockKind.ofKeyword? (openerParts cs).1 = some kind ∧
      Path.isValid (openerParts cs).2 = true ∧ marker = opener kind (openerParts cs).2 := by
  have hnonempty : Path.isValid (openerParts cs).2 = true → (openerParts cs).2.isEmpty = false := by
    intro h
    obtain ⟨c, path, hpath, -⟩ := Path.exists_of_isValid h
    simpa [String.isEmpty_iff] using fun hempty => by rw [hempty] at hpath; cases hpath
  rw [readOpener]
  cases hkind : BlockKind.ofKeyword? (openerParts cs).1 with
  | none => simp [hkind]
  | some kind =>
      simp only [hkind]
      cases hvalid : Path.isValid (openerParts cs).2 with
      | false =>
          split <;> simp
      | true => simp [hnonempty hvalid, eq_comm]

theorem trimStart_append_path {blanks : List Char} (hblanks : blanks.all Text.isBlank = true)
    {path : String} (hvalid : Path.isValid path = true) :
    Text.trimStart (blanks ++ path.toList) = path.toList := by
  rw [Text.trimStart, List.dropWhile_append_of_pos (List.all_eq_true.mp hblanks)]
  exact Text.trimStart_eq_self (Path.isBlank_eq_false_of_isValid hvalid)

/-- A marker is an opener if it is the keyword, a separator, blanks and a path. -/
theorem read_eq_opener_iff {inner : String} {kind : BlockKind} {path : String} :
    read inner = .ok (opener kind path) ↔
      Path.isValid path = true ∧ ∃ separator blanks, Text.isSeparator separator = true ∧
        blanks.all Text.isBlank = true ∧ inner = kind.openerInner separator blanks path := by
  constructor
  · intro h
    rw [read] at h
    split at h
    · rename_i cs hinner
      obtain ⟨kind', hkind, hvalid, heq⟩ := readOpener_eq_ok_iff.mp h
      obtain ⟨rfl, rfl⟩ := Marker.opener.inj heq
      obtain ⟨separator, blanks, hseparator, hblanks, hcs⟩ := eq_of_openerParts hvalid
      refine ⟨hvalid, separator, blanks, hseparator, hblanks, String.toList_injective ?_⟩
      rw [BlockKind.openerInner, BlockKind.keyword_of_ofKeyword? hkind, hinner]
      exact (congrArg ('#' :: ·) hcs).trans (by simp)
    · rename_i cs hinner
      rw [readCloser] at h
      split at h <;> cases h
    · split at h <;> cases h
  · rintro ⟨hvalid, separator, blanks, hseparator, hblanks, rfl⟩
    have hinner : (kind.openerInner separator blanks path).toList =
        '#' :: (kind.keyword.toList ++ separator :: (blanks ++ path.toList)) := by
      simp [BlockKind.openerInner]
    have hparts := openerParts_append kind.not_isSeparator_of_mem_keyword hseparator
      (blanks ++ path.toList)
    rw [trimStart_append_path hblanks hvalid, String.ofList_toList, String.ofList_toList] at hparts
    rw [read, hinner]
    exact readOpener_eq_ok_iff.mpr ⟨kind, by rw [hparts, BlockKind.ofKeyword?_keyword],
      by rwa [hparts], by rw [hparts]⟩

theorem read_eq_closer_iff {inner : String} {kind : BlockKind} :
    read inner = .ok (closer kind) ↔ inner = "/" ++ kind.keyword := by
  constructor
  · intro h
    rw [read] at h
    split at h
    · obtain ⟨_, -, -, heq⟩ := readOpener_eq_ok_iff.mp h
      cases heq
    · rename_i cs hinner
      rw [readCloser] at h
      split at h
      · cases h
      · rename_i kind' hkind
        cases h
        refine String.toList_injective ?_
        rw [BlockKind.keyword_of_ofKeyword? hkind, hinner]
        simp
    · split at h <;> cases h
  · rintro rfl
    cases kind <;> rfl

theorem read_eq_interpolation_iff {inner path : String} :
    read inner = .ok (interpolation path) ↔ inner = path ∧ Path.isValid path = true := by
  constructor
  · intro h
    rw [read] at h
    split at h
    · obtain ⟨_, -, -, heq⟩ := readOpener_eq_ok_iff.mp h
      cases heq
    · rw [readCloser] at h
      split at h <;> cases h
    · split at h
      · rename_i hvalid
        cases h
        exact ⟨rfl, hvalid⟩
      · cases h
  · rintro ⟨rfl, hvalid⟩
    obtain ⟨c, cs, hpath, hc, -⟩ := Path.exists_of_isValid hvalid
    have hhash : ¬c = '#' := by
      rintro rfl
      revert hc
      decide
    have hslash : ¬c = '/' := by
      rintro rfl
      revert hc
      decide
    rw [read, hpath]
    simp [hvalid, hhash, hslash]

/-- There are no braces between the braces of a marker. -/
theorem ne_brace_of_read {inner : String} {marker : Marker} (h : read inner = .ok marker) :
    ∀ c ∈ inner.toList, c ≠ '{' ∧ c ≠ '}' := by
  cases marker with
  | interpolation path =>
      obtain ⟨rfl, hpath⟩ := read_eq_interpolation_iff.mp h
      exact Path.ne_brace_of_isValid hpath
  | closer kind =>
      obtain rfl := read_eq_closer_iff.mp h
      intro c hmem
      rw [String.toList_append, List.mem_append] at hmem
      rcases hmem with hmem | hmem
      · obtain rfl := List.mem_singleton.mp hmem
        decide
      · exact Text.ne_brace_of_isWordChar (kind.isWordChar_of_mem_keyword c hmem)
  | opener kind path =>
      obtain ⟨hpath, separator, blanks, hseparator, hblanks, rfl⟩ := read_eq_opener_iff.mp h
      intro c hmem
      simp only [BlockKind.openerInner, String.toList_append, String.toList_ofList,
        List.mem_append] at hmem
      rcases hmem with ((hmem | hmem) | hmem) | hmem
      · obtain rfl := List.mem_singleton.mp hmem
        decide
      · exact Text.ne_brace_of_isWordChar (kind.isWordChar_of_mem_keyword c hmem)
      · rcases List.mem_cons.mp hmem with rfl | hmem
        · exact Text.ne_brace_of_isBlank (Text.isBlank_of_isSeparator hseparator)
        · exact Text.ne_brace_of_isBlank (List.all_eq_true.mp hblanks c hmem)
      · exact Path.ne_brace_of_isValid hpath c hmem

end Marker

theorem BlockKind.read_closerInner (kind : BlockKind) :
    Marker.read ("/" ++ kind.keyword) = .ok (.closer kind) :=
  Marker.read_eq_closer_iff.mpr rfl

end Stencil
