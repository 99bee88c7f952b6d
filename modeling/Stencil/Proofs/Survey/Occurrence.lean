import Stencil.Proofs.Survey.Faults
import Mathlib.SetTheory.Cardinal.Finite

/-!
# The markers of a text

A survey goes over a text once, from marker to marker. What it counts can be said without the
search: a marker of a text is any place that reads as one (`Occurrence`), whether or not a search
comes upon it. No marker starts inside another one (`Occurrence.eq_here_or_shift`), so the search
finds them all, in order (`Occurrence.exists_inOrder`), and its counts are those of the openers and
closers that there are (`openerCount_eq_card`, `closerCount_eq_card`).
-/

namespace Stencil

namespace Survey

variable {cs rest inner : List Char}

/-! ## Places that read as a marker -/

/-- A place in a text where a text without braces stands between two pairs of braces. -/
@[ext]
structure Occurrence (cs : List Char) where
  before : List Char
  inner : List Char
  after : List Char
  braceless : ∀ c ∈ inner, isBrace c = false
  spelled : cs = before ++ '{' :: '{' :: (inner ++ '}' :: '}' :: after)

theorem braceless_of_markerHere? (h : markerHere? cs = some (inner, rest)) :
    ∀ c ∈ inner, isBrace c = false := by
  unfold markerHere? at h
  split at h
  · split at h
    · obtain ⟨rfl, -⟩ := Prod.mk.inj (Option.some.inj h)
      intro c hc
      simpa using List.mem_takeWhile_imp hc
    · cases h
  · cases h

namespace Occurrence

/-- The first byte of the marker. -/
def start (m : Occurrence cs) : Nat := byteSize m.before

/-- The first byte after the marker. -/
def stop (m : Occurrence cs) : Nat := m.start + byteSize m.inner + 4

def Contains (m : Occurrence cs) (place : Nat) : Prop := m.start ≤ place ∧ place < m.stop

theorem start_lt_stop (m : Occurrence cs) : m.start < m.stop := by
  unfold stop
  omega

/-- The marker that starts the text. -/
def here (h : markerHere? cs = some (inner, rest)) : Occurrence cs where
  before := []
  inner := inner
  after := rest
  braceless := braceless_of_markerHere? h
  spelled := eq_of_markerHere? h

/-- A marker of the rest of a text. -/
def shift (first : List Char) (h : cs = first ++ rest) (m : Occurrence rest) : Occurrence cs where
  before := first ++ m.before
  inner := m.inner
  after := m.after
  braceless := m.braceless
  spelled := by rw [h, List.append_assoc, ← m.spelled]

section

variable {first : List Char} (h : cs = first ++ rest) (m : Occurrence rest)

@[simp] theorem inner_shift : (m.shift first h).inner = m.inner := rfl

@[simp] theorem start_shift : (m.shift first h).start = byteSize first + m.start :=
  byteSize_append first m.before

@[simp] theorem stop_shift : (m.shift first h).stop = byteSize first + m.stop := by
  unfold stop
  rw [start_shift, inner_shift]
  omega

theorem contains_shift_iff {place : Nat} :
    (m.shift first h).Contains (byteSize first + place) ↔ m.Contains place := by
  unfold Contains
  rw [start_shift, stop_shift]
  omega

end

theorem markerHere?_of_before (m : Occurrence cs) (h : m.before = []) :
    markerHere? cs = some (m.inner, m.after) := by
  have hspelled := m.spelled
  rw [h, List.nil_append] at hspelled
  exact (congrArg markerHere? hspelled).trans (markerHere?_of_brace_free m.braceless m.after)

/-- A marker that does not start the text is one of the text after the first character. -/
theorem exists_shift_of_before {c : Char} (m : Occurrence (c :: rest)) (h : m.before ≠ []) :
    ∃ m' : Occurrence rest, m'.shift [c] rfl = m := by
  obtain ⟨before, inner, after, hbraceless, hspelled⟩ := m
  cases before with
  | nil => exact absurd rfl h
  | cons d before =>
      obtain ⟨rfl, hrest⟩ := List.cons.inj hspelled
      exact ⟨⟨before, inner, after, hbraceless, hrest⟩, rfl⟩

theorem exists_shift_of_none {c : Char} (h : markerHere? (c :: rest) = none)
    (m : Occurrence (c :: rest)) : ∃ m' : Occurrence rest, m'.shift [c] rfl = m := by
  refine m.exists_shift_of_before fun hbefore => ?_
  rw [m.markerHere?_of_before hbefore] at h
  cases h

end Occurrence

/-! ## Markers do not start inside markers -/

/-- The characters of a marker. -/
def markerChars (inner : List Char) : List Char := '{' :: '{' :: (inner ++ ['}', '}'])

theorem byteSize_markerChars (inner : List Char) :
    byteSize (markerChars inner) = byteSize inner + 4 := by
  have hbraces : byteSize (markerChars inner) = 1 + (1 + byteSize (inner ++ ['}', '}'])) := rfl
  have hclose : byteSize ['}', '}'] = 2 := rfl
  rw [hbraces, byteSize_append, hclose]
  omega

theorem Occurrence.stop_here (h : markerHere? cs = some (inner, rest)) :
    (here h).stop = byteSize (markerChars inner) := by
  rw [byteSize_markerChars]
  exact congrArg (· + 4) (Nat.zero_add _)

theorem eq_markerChars_append (h : markerHere? cs = some (inner, rest)) :
    cs = markerChars inner ++ rest := by
  rw [eq_of_markerHere? h]
  simp [markerChars]

/-- What starts with an opening brace does not start inside a text that has none. -/
theorem exists_append_of_not_mem {head tail : List Char} (before : List Char) (hhead : '{' ∉ head)
    (h : head ++ rest = before ++ '{' :: tail) :
    ∃ between, before = head ++ between ∧ rest = between ++ '{' :: tail := by
  rcases List.append_eq_append_iff.mp h with ⟨between, hbefore, hrest⟩ | ⟨left, hleft, htail⟩
  · exact ⟨between, hbefore, hrest⟩
  · cases left with
    | nil => exact ⟨[], by simpa using hleft.symm, htail.symm⟩
    | cons c left =>
        obtain ⟨rfl, -⟩ := List.cons.inj htail
        refine absurd ?_ hhead
        rw [hleft]
        simp

/-- The markers of a text that starts with one are this one and those of the rest: after its first
brace there is no opening pair before it ends. -/
theorem Occurrence.eq_here_or_shift (h : markerHere? cs = some (inner, rest))
    (m : Occurrence cs) :
    m = here h ∨
      ∃ m' : Occurrence rest, m'.shift (markerChars inner) (eq_markerChars_append h) = m := by
  have hspelled := (eq_markerChars_append h).symm.trans m.spelled
  have hbraceless := braceless_of_markerHere? h
  have hclosing : '{' ∉ inner ++ ['}', '}'] := by
    intro hmem
    rcases List.mem_append.mp hmem with hinner | hclose
    · cases hbraceless _ hinner
    · revert hclose
      decide
  rw [markerChars, List.cons_append, List.cons_append] at hspelled
  cases hbefore : m.before with
  | nil =>
      have hhere := m.markerHere?_of_before hbefore
      rw [h] at hhere
      obtain ⟨hinner, hafter⟩ := Prod.mk.inj (Option.some.inj hhere)
      exact .inl (Occurrence.ext hbefore hinner.symm hafter.symm)
  | cons c before =>
      rw [hbefore, List.cons_append] at hspelled
      obtain ⟨rfl, hbody⟩ := List.cons.inj hspelled
      cases before with
      | nil =>
          obtain ⟨-, htail⟩ := List.cons.inj hbody
          obtain ⟨between, hnil, -⟩ := exists_append_of_not_mem [] hclosing htail
          simp at hnil
      | cons d before =>
          obtain ⟨rfl, htail⟩ := List.cons.inj hbody
          obtain ⟨between, rfl, hrest⟩ := exists_append_of_not_mem before hclosing htail
          exact .inr ⟨⟨between, m.inner, m.after, m.braceless, hrest⟩,
            Occurrence.ext hbefore.symm rfl rfl⟩

/-! ## All markers, in order -/

namespace Occurrence

/-- The pieces of a text have all its markers, and each ends before the next one starts. -/
theorem exists_inOrder (cs : List Char) :
    ∃ ms : List (Occurrence cs),
      ms.map (·.inner) = (Piece.ofChars cs).filterMap Piece.inner? ∧
      ms.Pairwise (fun m m' => m.stop ≤ m'.start) ∧ ∀ m, m ∈ ms := by
  fun_induction Piece.ofChars cs with
  | case1 cs inner rest hmarker ih =>
      obtain ⟨ms, hinners, horder, hall⟩ := ih
      refine ⟨here hmarker :: ms.map (shift (markerChars inner) (eq_markerChars_append hmarker)),
        ?_, ?_, ?_⟩
      · rw [List.map_cons, List.map_map]
        exact congrArg (inner :: ·) hinners
      · rw [List.pairwise_cons]
        refine ⟨?_, ?_⟩
        · intro m hm
          obtain ⟨m', -, rfl⟩ := List.mem_map.mp hm
          rw [stop_here, start_shift]
          exact Nat.le_add_right _ _
        · refine List.pairwise_map.mpr (horder.imp fun hle => ?_)
          rw [stop_shift, start_shift]
          omega
      · intro m
        rcases m.eq_here_or_shift hmarker with rfl | ⟨m', rfl⟩
        · exact List.mem_cons_self ..
        · exact List.mem_cons_of_mem _ (List.mem_map_of_mem (hall m'))
  | case2 =>
      refine ⟨[], rfl, .nil, ?_⟩
      intro m
      have hspelled := m.spelled
      simp at hspelled
  | case3 c rest hmarker ih =>
      obtain ⟨ms, hinners, horder, hall⟩ := ih
      refine ⟨ms.map (shift [c] rfl), ?_, ?_, ?_⟩
      · rw [List.map_map]
        exact hinners.trans (Piece.filterMap_inner?_foldr_extend [c] _).symm
      · refine List.pairwise_map.mpr (horder.imp fun hle => ?_)
        rw [stop_shift, start_shift]
        omega
      · intro m
        obtain ⟨m', rfl⟩ := m.exists_shift_of_none hmarker
        exact List.mem_map_of_mem (hall m')

theorem disjoint_of_ne {m m' : Occurrence cs} (h : m ≠ m') :
    m.stop ≤ m'.start ∨ m'.stop ≤ m.start := by
  obtain ⟨ms, -, horder, hall⟩ := exists_inOrder cs
  have hsymm : Std.Symm fun m m' : Occurrence cs => m.stop ≤ m'.start ∨ m'.stop ≤ m.start :=
    ⟨fun _ _ => Or.symm⟩
  have hdisjoint : ms.Pairwise fun m m' => m.stop ≤ m'.start ∨ m'.stop ≤ m.start :=
    horder.imp .inl
  exact hdisjoint.forall (hall m) (hall m') h

instance : Finite (Occurrence cs) := by
  obtain ⟨ms, -, -, hall⟩ := exists_inOrder cs
  exact Finite.of_finite_univ ((List.finite_toSet ms).subset fun m _ => hall m)

/-- To count what is found is to count what there is. -/
theorem card_eq_countP {p : List Char → Prop} {q : List Char → Bool}
    (h : ∀ inner, q inner = true ↔ p inner) (cs : List Char) :
    Nat.card {m : Occurrence cs // p m.inner} =
      ((Piece.ofChars cs).filterMap Piece.inner?).countP q := by
  obtain ⟨ms, hinners, horder, hall⟩ := exists_inOrder cs
  have hnodup : ms.Nodup := horder.imp fun {m m'} hle heq => by
    have hlt := m.start_lt_stop
    rw [heq] at hle hlt
    omega
  have hfound : (Multiset.ofList (ms.filter (q ∘ Occurrence.inner))).Nodup :=
    Multiset.coe_nodup.mpr (hnodup.filter _)
  rw [← hinners, List.countP_map, List.countP_eq_length_filter]
  refine Nat.subtype_card ⟨_, hfound⟩ fun m => ?_
  rw [Finset.mem_mk, Multiset.mem_coe, List.mem_filter]
  exact ⟨fun hm => (h _).mp hm.2, fun hm => ⟨hall m, (h _).mpr hm⟩⟩

end Occurrence

/-! ## Openers and closers -/

/-- What stands in an opener: the keyword and nothing else, or a blank after it and anything. -/
def Opens (kind : BlockKind) (inner : List Char) : Prop :=
  inner = '#' :: kind.keyword.toList ∨
    ∃ separator tail, Text.isBlank separator = true ∧
      inner = '#' :: (kind.keyword.toList ++ separator :: tail)

def Closes (kind : BlockKind) (inner : List Char) : Prop := inner = '/' :: kind.keyword.toList

theorem afterKeyword?_eq_some_iff {kind : BlockKind} {tail : List Char} :
    afterKeyword? kind inner = some tail ↔ inner = '#' :: (kind.keyword.toList ++ tail) := by
  constructor
  · intro h
    unfold afterKeyword? at h
    split at h
    · dsimp only at h
      split at h
      · rename_i cs hprefix
        obtain ⟨left, rfl⟩ := List.isPrefixOf_iff_prefix.mp hprefix
        rw [List.drop_left] at h
        rw [Option.some.inj h]
      · cases h
    · cases h
  · rintro rfl
    have hprefix : kind.keyword.toList.isPrefixOf (kind.keyword.toList ++ tail) = true :=
      List.isPrefixOf_iff_prefix.mpr (List.prefix_append ..)
    rw [afterKeyword?, if_pos hprefix, List.drop_left]

theorem opens?_eq_some_iff {kind : BlockKind} : opens? inner = some kind ↔ Opens kind inner := by
  constructor
  · intro h
    obtain ⟨⟨kind', tail⟩, hopener, rfl⟩ := Option.map_eq_some_iff.mp h
    obtain ⟨found, -, hfound⟩ := List.exists_of_findSome?_eq_some hopener
    split at hfound
    · rename_i hafter
      obtain ⟨rfl, -⟩ := Prod.mk.inj (Option.some.inj hfound)
      rw [afterKeyword?_eq_some_iff, List.append_nil] at hafter
      exact .inl hafter
    · rename_i c rest hafter
      split at hfound
      · rename_i hblank
        obtain ⟨rfl, -⟩ := Prod.mk.inj (Option.some.inj hfound)
        exact .inr ⟨c, rest, hblank, afterKeyword?_eq_some_iff.mp hafter⟩
      · cases hfound
    · cases hfound
  · rintro (rfl | ⟨separator, tail, hblank, rfl⟩)
    · cases kind <;> rfl
    · have hinner : (kind.openerInner separator tail "").toList =
          '#' :: (kind.keyword.toList ++ separator :: tail) := by
        simp [BlockKind.openerInner]
      rw [opens?, ← hinner, opener?_openerInner hblank]
      rfl

theorem closer?_eq_some_iff {kind : BlockKind} :
    closer? inner = some kind ↔ Closes kind inner := by
  constructor
  · intro h
    unfold closer? at h
    split at h
    · rename_i cs
      have hkeyword := BlockKind.keyword_of_ofKeyword? h
      rw [Closes, hkeyword, String.toList_ofList]
    · cases h
  · rintro rfl
    rw [closer?, String.ofList_toList, BlockKind.ofKeyword?_keyword]

theorem openerCount_eq_card (kind : BlockKind) (source : String) :
    openerCount kind source =
      Nat.card {m : Occurrence source.toList // Opens kind m.inner} := by
  refine (Occurrence.card_eq_countP (fun inner => ?_) source.toList).symm
  rw [decide_eq_true_eq]
  exact opens?_eq_some_iff

theorem closerCount_eq_card (kind : BlockKind) (source : String) :
    closerCount kind source =
      Nat.card {m : Occurrence source.toList // Closes kind m.inner} := by
  refine (Occurrence.card_eq_countP (fun inner => ?_) source.toList).symm
  rw [decide_eq_true_eq]
  exact closer?_eq_some_iff

end Survey

end Stencil
