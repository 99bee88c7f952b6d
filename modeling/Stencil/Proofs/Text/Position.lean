import Stencil.Text.Position
import Mathlib

/-!
# Positions in a text

The position of a byte depends only on the text before it, so it stays the same when the text goes
on differently, and later bytes have later positions. Of the bytes at which a character starts, and
of the end, no two have the same position (`locate_lt_locate_iff`). What diagnostics write for a
position tells which one it is.
-/

namespace Stencil.Position

variable {text : String} {offset offset' : Nat}

theorem before_append {cs : List Char} {offset : Nat} (h : offset ≤ String.utf8Len cs)
    (ds : List Char) : before (cs ++ ds) offset = before cs offset := by
  induction cs generalizing offset with
  | nil =>
      obtain rfl := Nat.le_zero.mp h
      cases ds <;> rfl
  | cons c cs ih =>
      rw [String.utf8Len_cons] at h
      have hrest : offset - c.utf8Size ≤ String.utf8Len cs := by omega
      rw [List.cons_append, before, before, ih hrest]

theorem locate_append {text : String} {offset : Nat} (h : offset ≤ text.utf8ByteSize)
    (after : String) : locate (text ++ after) offset = locate text offset := by
  have hsize : offset ≤ String.utf8Len text.toList := by
    rwa [← String.utf8ByteSize_ofList, String.ofList_toList]
  rw [locate, locate, String.toList_append, before_append hsize]

theorem before_append_utf8Len (cs ds : List Char) : before (cs ++ ds) (String.utf8Len cs) = cs := by
  induction cs with
  | nil => cases ds <;> rfl
  | cons c cs ih =>
      have hpos := c.utf8Size_pos
      rw [List.cons_append, before, String.utf8Len_cons, if_neg (by omega), Nat.add_sub_cancel, ih]

/-- Between two characters the text before a byte has as many bytes as the offset says. -/
theorem exists_eq_before_append (h : (String.Pos.Raw.mk offset).IsValid text) :
    ∃ after, text.toList = before text.toList offset ++ after ∧
      String.utf8Len (before text.toList offset) = offset := by
  obtain ⟨first, after, rfl, hoffset⟩ := String.Pos.Raw.isValid_iff_exists_append.mp h
  obtain rfl : offset = first.utf8ByteSize := congrArg String.Pos.Raw.byteIdx hoffset
  rw [String.toList_append, ← String.utf8Len_toList, before_append_utf8Len]
  exact ⟨after.toList, rfl, rfl⟩

/-- The line feeds are counted, and then the characters after the last one. -/
theorem foldl_next_start (cs : List Char) :
    cs.foldl next start =
      ⟨cs.count '\n' + 1, (cs.reverse.takeWhile (· ≠ '\n')).length + 1⟩ := by
  induction cs using List.reverseRecOn with
  | nil => rfl
  | append_singleton cs c ih =>
      rw [List.foldl_append, ih, List.foldl_cons, List.foldl_nil, next, List.count_append,
        List.reverse_append, List.reverse_singleton, List.singleton_append]
      by_cases hc : c = '\n'
      · subst hc
        rw [if_pos rfl, List.count_singleton_self, List.takeWhile_cons_of_neg (by decide)]
        rfl
      · rw [if_neg hc, List.takeWhile_cons_of_pos (by simpa using hc), List.length_cons,
          List.count_eq_zero_of_not_mem (a := '\n') (l := [c]) (by simpa using Ne.symm hc)]

/-! ## The order of positions -/

/-- On an earlier line, or on the same line and no further along. -/
instance : LE Position where
  le p q := p.line < q.line ∨ p.line = q.line ∧ p.column ≤ q.column

theorem le_def {p q : Position} :
    p ≤ q ↔ p.line < q.line ∨ p.line = q.line ∧ p.column ≤ q.column := Iff.rfl

/-- On an earlier line, or on the same line and less far along. -/
instance : LT Position where
  lt p q := p.line < q.line ∨ p.line = q.line ∧ p.column < q.column

theorem lt_def {p q : Position} :
    p < q ↔ p.line < q.line ∨ p.line = q.line ∧ p.column < q.column := Iff.rfl

theorem le_refl (p : Position) : p ≤ p := .inr ⟨rfl, Nat.le_refl _⟩

theorem le_trans {p q r : Position} (hpq : p ≤ q) (hqr : q ≤ r) : p ≤ r := by
  rw [le_def] at hpq hqr ⊢
  omega

theorem le_of_lt {p q : Position} (h : p < q) : p ≤ q := by
  rw [lt_def] at h
  rw [le_def]
  omega

theorem not_lt_of_le {p q : Position} (h : p ≤ q) : ¬q < p := by
  rw [le_def] at h
  rw [lt_def]
  omega

theorem lt_of_lt_of_le {p q r : Position} (hpq : p < q) (hqr : q ≤ r) : p < r := by
  rw [lt_def] at hpq ⊢
  rw [le_def] at hqr
  omega

theorem lt_next (p : Position) (c : Char) : p < p.next c := by
  rw [next]
  split
  · exact .inl (Nat.lt_succ_self _)
  · exact .inr ⟨rfl, Nat.lt_succ_self _⟩

theorem le_foldl_next (cs : List Char) : ∀ p : Position, p ≤ cs.foldl next p := by
  induction cs with
  | nil => exact le_refl
  | cons c rest ih => exact fun p => le_trans (le_of_lt (lt_next p c)) (ih _)

theorem lt_foldl_next {cs : List Char} (h : cs ≠ []) (p : Position) : p < cs.foldl next p := by
  cases cs with
  | nil => exact absurd rfl h
  | cons c rest => exact lt_of_lt_of_le (lt_next p c) (le_foldl_next rest _)

theorem before_prefix (cs : List Char) {offset offset' : Nat} (h : offset ≤ offset') :
    before cs offset <+: before cs offset' := by
  induction cs generalizing offset offset' with
  | nil => exact List.prefix_rfl
  | cons c rest ih =>
      rw [before, before]
      by_cases hzero : offset = 0
      · rw [if_pos hzero]
        exact List.nil_prefix
      · have hzero' : offset' ≠ 0 := by omega
        rw [if_neg hzero, if_neg hzero']
        exact (List.prefix_cons_inj c).mpr (ih (Nat.sub_le_sub_right h _))

theorem locate_le_locate (text : String) {offset offset' : Nat} (h : offset ≤ offset') :
    locate text offset ≤ locate text offset' := by
  obtain ⟨between, hbetween⟩ := before_prefix text.toList h
  rw [locate, locate, ← hbetween, List.foldl_append]
  exact le_foldl_next between _

theorem locate_lt_locate (h : (String.Pos.Raw.mk offset).IsValid text)
    (h' : (String.Pos.Raw.mk offset').IsValid text) (hlt : offset < offset') :
    locate text offset < locate text offset' := by
  obtain ⟨-, -, hsize⟩ := exists_eq_before_append h
  obtain ⟨-, -, hsize'⟩ := exists_eq_before_append h'
  obtain ⟨between, hbetween⟩ := before_prefix text.toList hlt.le
  have hne : between ≠ [] := by
    rintro rfl
    rw [List.append_nil] at hbetween
    rw [hbetween] at hsize
    omega
  rw [locate, locate, ← hbetween, List.foldl_append]
  exact lt_foldl_next hne _

theorem locate_lt_locate_iff (h : (String.Pos.Raw.mk offset).IsValid text)
    (h' : (String.Pos.Raw.mk offset').IsValid text) :
    locate text offset < locate text offset' ↔ offset < offset' := by
  constructor
  · intro hlt
    by_contra hge
    exact not_lt_of_le (locate_le_locate text (Nat.le_of_not_lt hge)) hlt
  · exact locate_lt_locate h h'

/-! ## Positions as they are written -/

theorem describe_eq (p : Position) :
    p.describe = "line " ++ toString p.line ++ ", column " ++ toString p.column := rfl

theorem isDigit_of_mem_toString {n : Nat} {c : Char} (h : c ∈ (toString n).toList) :
    c.isDigit = true := by
  have hdigits : (toString n).toList = Nat.toDigits 10 n := Nat.toList_repr
  rw [hdigits] at h
  exact Nat.isDigit_of_mem_toDigits (by decide) (by decide) h

theorem takeWhile_isDigit_append {n : Nat} {rest : List Char}
    (hrest : ∀ c ∈ rest.head?, c.isDigit = false) :
    ((toString n).toList ++ rest).takeWhile Char.isDigit = (toString n).toList := by
  rw [List.takeWhile_append_of_pos fun c hc => isDigit_of_mem_toString hc]
  cases rest with
  | nil => exact List.append_nil _
  | cons c rest =>
      have hc : ¬c.isDigit = true := by
        rw [hrest c rfl]
        exact Bool.false_ne_true
      rw [List.takeWhile_cons_of_neg hc, List.append_nil]

/-- A number ends where its digits end. -/
theorem eq_of_toString_append_eq {n n' : Nat} {rest rest' : List Char}
    (hrest : ∀ c ∈ rest.head?, c.isDigit = false) (hrest' : ∀ c ∈ rest'.head?, c.isDigit = false)
    (h : (toString n).toList ++ rest = (toString n').toList ++ rest') : n = n' ∧ rest = rest' := by
  have hdigits := congrArg (List.takeWhile Char.isDigit) h
  rw [takeWhile_isDigit_append hrest, takeWhile_isDigit_append hrest'] at hdigits
  rw [hdigits] at h
  exact ⟨Nat.repr_inj.mp (String.toList_injective hdigits), List.append_cancel_left h⟩

theorem describe_injective {p q : Position} (h : p.describe = q.describe) : p = q := by
  have hchars : ∀ p : Position, p.describe.toList = "line ".toList ++ ((toString p.line).toList ++
      (", column ".toList ++ ((toString p.column).toList ++ []))) := by
    intro p
    rw [describe_eq]
    simp only [String.toList_append, List.append_assoc, List.append_nil]
  have hlist := congrArg String.toList h
  rw [hchars, hchars] at hlist
  have hcomma : ∀ column : Nat,
      ∀ c ∈ (", column ".toList ++ ((toString column).toList ++ [])).head?,
      c.isDigit = false := by
    intro column c hc
    obtain rfl := Option.some.inj hc
    rfl
  obtain ⟨hline, htail⟩ := eq_of_toString_append_eq (hcomma p.column) (hcomma q.column)
    (List.append_cancel_left hlist)
  obtain ⟨hcolumn, -⟩ := eq_of_toString_append_eq (by simp) (by simp)
    (List.append_cancel_left htail)
  obtain ⟨line, column⟩ := p
  obtain ⟨line', column'⟩ := q
  obtain rfl : line = line' := hline
  obtain rfl : column = column' := hcolumn
  rfl

end Stencil.Position
