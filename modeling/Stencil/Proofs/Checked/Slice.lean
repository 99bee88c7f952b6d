import Stencil.Proofs.Survey.Pieces
import Stencil.Proofs.Template.Tiling
import Stencil.Proofs.Text.Position

/-!
# Checked slices and counts

A text can be cut at a byte offset that is in range and between two characters, and nowhere else;
a count can be lowered only as far as zero. The functions here check that: `slice?` has an answer
where both ends can be cut at and are in order (`slice?_eq_some_iff`), `less?` where there is enough
to take away, and `next?` where the next number is no greater than one that is at hand. Without an
answer there is no result of anything that is made of them, so what is made of them and has a
result has never asked for a cut or a number that is not there.

`position?` finds a position with slices alone, and does so at every offset that the text can be
cut at (`position?_of_isValid`).
-/

namespace Stencil.Checked

open Survey (byteSize byteSize_append byteSize_toList)

/-! ## Numbers -/

/-- `n` less `k`, which must not be more than `n`. -/
def less? (n k : Nat) : Option Nat := if k ≤ n then some (n - k) else none

/-- The number after `n`, which must not go beyond `bound`. -/
def next? (bound n : Nat) : Option Nat := if n < bound then some (n + 1) else none

theorem less?_eq_some {n k : Nat} (h : k ≤ n) : less? n k = some (n - k) := if_pos h

theorem next?_eq_some {bound n : Nat} (h : n < bound) : next? bound n = some (n + 1) := if_pos h

/-! ## Slices -/

theorem utf8ByteSize_ofList (cs : List Char) : (String.ofList cs).utf8ByteSize = byteSize cs := by
  rw [← byteSize_toList, String.toList_ofList]

/-- The characters in the first `size` bytes and those after them, if no character is split and
there are so many bytes. -/
def splitAt? (size : Nat) : List Char → Option (List Char × List Char)
  | [] => if size = 0 then some ([], []) else none
  | c :: cs =>
    if size = 0 then some ([], c :: cs)
    else if c.utf8Size ≤ size then
      (splitAt? (size - c.utf8Size) cs).map fun (before, after) => (c :: before, after)
    else none

theorem splitAt?_eq_some_iff {size : Nat} {cs before after : List Char} :
    splitAt? size cs = some (before, after) ↔ cs = before ++ after ∧ byteSize before = size := by
  induction cs generalizing size before with
  | nil =>
      rw [splitAt?]
      constructor
      · intro h
        split at h
        · rename_i hzero
          cases h
          exact ⟨rfl, hzero.symm⟩
        · cases h
      · rintro ⟨happend, rfl⟩
        obtain ⟨rfl, rfl⟩ := List.append_eq_nil_iff.mp happend.symm
        rfl
  | cons c cs ih =>
      have hc : 0 < c.utf8Size := c.utf8Size_pos
      rw [splitAt?]
      constructor
      · intro h
        split at h
        · rename_i hzero
          cases h
          exact ⟨rfl, hzero.symm⟩
        · split at h
          · rename_i hfits
            obtain ⟨⟨before', after'⟩, hsplit, heq⟩ := Option.map_eq_some_iff.mp h
            cases heq
            obtain ⟨rfl, hsize⟩ := ih.mp hsplit
            refine ⟨rfl, ?_⟩
            show c.utf8Size + byteSize before' = size
            omega
          · cases h
      · rintro ⟨happend, rfl⟩
        cases before with
        | nil =>
            obtain rfl : c :: cs = after := happend
            rfl
        | cons d before =>
            obtain ⟨rfl, rfl⟩ := List.cons.inj happend
            have hsize : byteSize (c :: before) = c.utf8Size + byteSize before := rfl
            have hrest : byteSize (c :: before) - c.utf8Size = byteSize before := by omega
            rw [if_neg (by omega), if_pos (by omega), hrest, ih.mpr ⟨rfl, rfl⟩]
            rfl

/-- The text of a source from the byte `start` up to the byte `stop`. -/
def slice? (source : String) (start stop : Nat) : Option String := do
  let size ← less? stop start
  let cut ← splitAt? start source.toList
  let part ← splitAt? size cut.2
  some (String.ofList part.1)

theorem slice?_eq_some_iff {source text : String} {start stop : Nat} :
    slice? source start stop = some text ↔ Span.Reads source ⟨start, stop⟩ text := by
  constructor
  · intro h
    obtain ⟨size, hsize, h⟩ := Option.bind_eq_some_iff.mp h
    obtain ⟨⟨before, rest⟩, hbefore, h⟩ := Option.bind_eq_some_iff.mp h
    obtain ⟨⟨part, after⟩, hpart, h⟩ := Option.bind_eq_some_iff.mp h
    obtain rfl := Option.some.inj h
    obtain ⟨horder, hsize⟩ := Option.ite_none_right_eq_some.mp hsize
    obtain rfl := Option.some.inj hsize
    obtain ⟨hsource, rfl⟩ := splitAt?_eq_some_iff.mp hbefore
    obtain ⟨rfl, hpartSize⟩ := splitAt?_eq_some_iff.mp hpart
    refine ⟨String.ofList before, String.ofList after, ?_, ?_, ?_⟩
    · refine String.toList_injective ?_
      simp [hsource]
    · exact (utf8ByteSize_ofList before).symm
    · simp only [utf8ByteSize_ofList, hpartSize]
      omega
  · rintro ⟨before, after, rfl, hstart, hstop⟩
    simp only at hstart hstop
    have hbefore : splitAt? start (before ++ text ++ after).toList =
        some (before.toList, text.toList ++ after.toList) :=
      splitAt?_eq_some_iff.mpr ⟨by simp, by rw [byteSize_toList, hstart]⟩
    have htext : splitAt? (stop - start) (text.toList ++ after.toList) =
        some (text.toList, after.toList) :=
      splitAt?_eq_some_iff.mpr ⟨rfl, by rw [byteSize_toList]; omega⟩
    simp only [slice?, less?_eq_some (show start ≤ stop by omega), hbefore, htext,
      Option.bind_eq_bind, Option.bind_some, String.ofList_toList]

/-- A slice can be cut out exactly where its ends are in order, in range and between characters. -/
theorem isSome_slice?_iff {source : String} {start stop : Nat} :
    (slice? source start stop).isSome = true ↔
      start ≤ stop ∧ stop ≤ source.utf8ByteSize ∧ (Span.mk start stop).OnBoundaries source := by
  rw [Option.isSome_iff_exists]
  constructor
  · rintro ⟨text, h⟩
    have hreads := slice?_eq_some_iff.mp h
    have hbounds := hreads.onBoundaries
    obtain ⟨before, after, -, hstart, hstop⟩ := hreads
    simp only at hstart hstop
    exact ⟨by omega, hbounds.2.le_rawEndPos, hbounds⟩
  · rintro ⟨horder, -, hstart, hstop⟩
    obtain ⟨before, rest, hsource, hbefore⟩ := String.Pos.Raw.isValid_iff_exists_append.mp hstart
    obtain ⟨front, after, rfl, hfront⟩ := String.Pos.Raw.isValid_iff_exists_append.mp hstop
    obtain rfl : start = before.utf8ByteSize := congrArg String.Pos.Raw.byteIdx hbefore
    obtain rfl : stop = front.utf8ByteSize := congrArg String.Pos.Raw.byteIdx hfront
    have hchars : front.toList ++ after.toList = before.toList ++ rest.toList := by
      rw [← String.toList_append, hsource, String.toList_append]
    rcases List.append_eq_append_iff.mp hchars with ⟨excess, hexcess, -⟩ | ⟨part, hpart, hrest⟩
    · have hsize := congrArg byteSize hexcess
      rw [byteSize_append, byteSize_toList, byteSize_toList] at hsize
      exact ⟨"", slice?_eq_some_iff.mpr ⟨before, rest, by simpa using hsource, rfl, by simp; omega⟩⟩
    · have hsize := congrArg byteSize hpart
      rw [byteSize_append, byteSize_toList, byteSize_toList] at hsize
      have hsplit : front ++ after = before ++ String.ofList part ++ after := by
        refine String.toList_injective ?_
        simp [hpart]
      exact ⟨String.ofList part, slice?_eq_some_iff.mpr
        ⟨before, after, hsplit, rfl, by rw [utf8ByteSize_ofList]; exact hsize⟩⟩

/-- No slice begins inside a character. -/
example : slice? "é!" 1 3 = none := by decide

theorem reads_source (source : String) :
    Span.Reads source ⟨0, source.utf8ByteSize⟩ (String.ofList source.toList) := by
  rw [String.ofList_toList]
  exact .whole source

/-- What stands before and after a pair of marks, each of them one byte. -/
theorem reads_around_pair {source : String} {start stop : Nat} {mark : Char}
    {before after : List Char} (hmark : mark.utf8Size = 1)
    (h : Span.Reads source ⟨start, stop⟩ (String.ofList (before ++ mark :: mark :: after))) :
    Span.Reads source ⟨start, start + byteSize before⟩ (String.ofList before) ∧
      Span.Reads source ⟨start + byteSize before + 2, stop⟩ (String.ofList after) := by
  have hsplit : String.ofList (before ++ mark :: mark :: after) =
      String.ofList before ++ (String.ofList [mark, mark] ++ String.ofList after) := by
    refine String.toList_injective ?_
    simp
  rw [hsplit] at h
  have hpair : Span.Reads source ⟨start + byteSize before, stop⟩
      (String.ofList [mark, mark] ++ String.ofList after) :=
    h.right (by rw [utf8ByteSize_ofList])
  have hsize : (String.ofList [mark, mark]).utf8ByteSize = 2 := by
    rw [utf8ByteSize_ofList]
    show mark.utf8Size + (mark.utf8Size + 0) = 2
    omega
  exact ⟨h.left (by rw [utf8ByteSize_ofList]), hpair.right (by rw [hsize])⟩

/-! ## Positions -/

/-- How many bytes come before the last line feed. -/
def lastLineFeed? : List Char → Option Nat
  | [] => none
  | c :: cs =>
    ((lastLineFeed? cs).map (c.utf8Size + ·)).or (if c = '\n' then some 0 else none)

/-- Where the last line of a text starts. -/
def lineStart (text : String) : Nat := (lastLineFeed? text.toList).elim 0 (· + 1)

/-- The position of the byte `offset`: the line feeds before it are counted, and the characters
between the last of them and the byte. -/
def position? (source : String) (offset : Nat) : Option Position := do
  let before ← slice? source 0 offset
  let line ← slice? before (lineStart before) before.utf8ByteSize
  some ⟨before.toList.count '\n' + 1, line.length + 1⟩

theorem lastLineFeed?_eq_none {cs : List Char} (h : '\n' ∉ cs) : lastLineFeed? cs = none := by
  induction cs with
  | nil => rfl
  | cons c cs ih =>
      have hc : c ≠ '\n' := fun heq => h (heq ▸ List.mem_cons_self ..)
      rw [lastLineFeed?, ih fun hmem => h (List.mem_cons_of_mem _ hmem), if_neg hc]
      rfl

theorem lastLineFeed?_append {before line : List Char} (h : '\n' ∉ line) :
    lastLineFeed? (before ++ '\n' :: line) = some (byteSize before) := by
  induction before with
  | nil =>
      rw [List.nil_append, lastLineFeed?, lastLineFeed?_eq_none h]
      rfl
  | cons c before ih =>
      rw [List.cons_append, lastLineFeed?, ih]
      rfl

/-- A text is a line, or lines that end in a line feed and then a line. -/
theorem exists_line (cs : List Char) :
    '\n' ∉ cs ∨ ∃ before line, cs = before ++ '\n' :: line ∧ '\n' ∉ line := by
  induction cs with
  | nil => exact .inl List.not_mem_nil
  | cons c cs ih =>
      rcases ih with hline | ⟨before, line, rfl, hline⟩
      · by_cases hc : c = '\n'
        · exact .inr ⟨[], cs, by rw [hc]; rfl, hline⟩
        · refine .inl fun hmem => ?_
          rcases List.mem_cons.mp hmem with heq | hmem
          · exact hc heq.symm
          · exact hline hmem
      · exact .inr ⟨c :: before, line, rfl, hline⟩

theorem foldl_next_line {line : List Char} (h : '\n' ∉ line) (p : Position) :
    line.foldl Position.next p = ⟨p.line, p.column + line.length⟩ := by
  induction line generalizing p with
  | nil => rfl
  | cons c line ih =>
      have hc : c ≠ '\n' := fun heq => h (heq ▸ List.mem_cons_self ..)
      rw [List.foldl_cons, ih fun hmem => h (List.mem_cons_of_mem _ hmem), Position.next, if_neg hc,
        List.length_cons, Nat.add_right_comm, Nat.add_assoc]

/-- The last line of a text can be cut off, and its length is the column that is reached. -/
theorem exists_slice?_lineStart (text : String) :
    ∃ line, slice? text (lineStart text) text.utf8ByteSize = some line ∧
      (text.toList.foldl Position.next .start).column = line.length + 1 := by
  rcases exists_line text.toList with hline | ⟨before, line, htext, hline⟩
  · refine ⟨text, ?_, ?_⟩
    · rw [lineStart, lastLineFeed?_eq_none hline]
      exact slice?_eq_some_iff.mpr (.whole text)
    · rw [foldl_next_line hline]
      exact Nat.add_comm 1 _
  · have hstart : lineStart text = (String.ofList (before ++ ['\n'])).utf8ByteSize := by
      rw [lineStart, htext, lastLineFeed?_append hline, utf8ByteSize_ofList, byteSize_append]
      rfl
    have hsplit : text = String.ofList (before ++ ['\n']) ++ String.ofList line ++ "" := by
      refine String.toList_injective ?_
      simp [htext]
    refine ⟨String.ofList line, slice?_eq_some_iff.mpr ⟨_, _, hsplit, hstart, ?_⟩, ?_⟩
    · conv_lhs => rw [hsplit]
      simp only [String.utf8ByteSize_append, String.utf8ByteSize_empty, Nat.add_zero]
    · rw [htext, List.foldl_append, List.foldl_cons, foldl_next_line hline, String.length_ofList]
      exact Nat.add_comm 1 _

theorem position?_of_isValid {source : String} {offset : Nat}
    (h : (String.Pos.Raw.mk offset).IsValid source) :
    position? source offset = some (Position.locate source offset) := by
  obtain ⟨before, after, rfl, hoffset⟩ := String.Pos.Raw.isValid_iff_exists_append.mp h
  obtain rfl : offset = before.utf8ByteSize := congrArg String.Pos.Raw.byteIdx hoffset
  have hslice : slice? (before ++ after) 0 before.utf8ByteSize = some before :=
    slice?_eq_some_iff.mpr ⟨"", after, by simp, by simp, by simp⟩
  have hbefore : Position.before (before ++ after).toList before.utf8ByteSize = before.toList := by
    rw [String.toList_append, ← String.utf8Len_toList]
    exact Position.before_append_utf8Len before.toList after.toList
  obtain ⟨line, hline, hcolumn⟩ := exists_slice?_lineStart before
  have hcount : (before.toList.foldl Position.next .start).line = before.toList.count '\n' + 1 :=
    congrArg Position.line (Position.foldl_next_start before.toList)
  simp only [position?, hslice, hline, Option.bind_eq_bind, Option.bind_some, Position.locate,
    hbefore, ← hcount, ← hcolumn]

end Stencil.Checked
