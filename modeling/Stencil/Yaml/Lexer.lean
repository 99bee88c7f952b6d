import Stencil.Yaml.Layout
import Stencil.Yaml.Plain

/-!
# Cutting a text into tokens

`Token.ofText?` skips what separates tokens, reads the indicator or scalar that follows, and
leaves to `Layout` what their places mean. No tab may stand where a key could start.
-/

namespace Stencil.Yaml

/-- Skips blanks, line breaks and comments, and a byte order mark at the start of a line. Outside
flow collections a key may start on the new line; the result says whether one may start at the
next token, and where that is. -/
def skipSpace (inFlow comment keyAllowed : Bool) (point : Point) :
    List Char → Bool × Point × List Char
  | [] => (keyAllowed, point, [])
  | c :: cs =>
    if isBreak c then skipSpace inFlow false (keyAllowed || !inFlow) (point.next c) cs
    else if comment || c = ' ' || (c = '\t' && (inFlow || !keyAllowed)) ||
        (c = byteOrderMark && point.column = 0) then
      skipSpace inFlow comment keyAllowed (point.next c) cs
    else if c = '#' then skipSpace inFlow true keyAllowed (point.next c) cs
    else (keyAllowed, point, c :: cs)

theorem rest_length_of_skipSpace {inFlow comment keyAllowed keyAllowed' : Bool}
    {point point' : Point} {cs rest : List Char}
    (h : skipSpace inFlow comment keyAllowed point cs = (keyAllowed', point', rest)) :
    rest.length ≤ cs.length := by
  fun_induction skipSpace inFlow comment keyAllowed point cs with
  | case1 =>
    cases h
    exact Nat.le_refl _
  | case5 =>
    cases h
    exact Nat.le_refl _
  | _ =>
    rename_i ih
    exact Nat.le_trans (ih h) (Nat.le_succ _)

namespace Token

/-- A layout, and where the reading goes on. -/
structure Step where
  layout : Layout
  point : Point
  rest : List Char

/-- A scalar may be a key as a whole. After the line breaks at its end another may start. -/
def scalar? (l : Layout) (point : Point) (token : String → Token) (cut : Option Cut) :
    Option Step := do
  let cut ← cut
  let l ← l.startKey point
  let l := { l.emit (token (String.ofList cut.text)) with keyAllowed := cut.brokeLine }
  return ⟨l, cut.point, cut.rest⟩

/-- Reads the token that starts with the character `c`. -/
def read? (l : Layout) (point : Point) (c : Char) (cs : List Char) : Option Step :=
  if atDocumentMark point (c :: cs) then
    let token := if c = '-' then documentStart else documentEnd
    (l.documentMark token).map fun l => ⟨l, point.after (c :: cs.take 2), cs.drop 2⟩
  else
    match ofIndicator? l.inFlow c cs with
    | some token => (l.read point token).map fun l => ⟨l, point.next c, cs⟩
    | none =>
      if c = '\'' then scalar? l point quoted (Quote.single.scalar? (point.next c) cs)
      else if c = '"' then scalar? l point quoted (Quote.double.scalar? (point.next c) cs)
      else if startsPlain l.inFlow c then
        scalar? l point plain (plain? l.inFlow l.innerColumn point c cs)
      else none

theorem rest_of_scalar? {l : Layout} {point : Point} {token : String → Token}
    {cut : Option Cut} {s : Step} (h : scalar? l point token cut = some s) :
    ∃ cut', cut = some cut' ∧ s.rest = cut'.rest := by
  cases cut with
  | none => cases h
  | some cut =>
    obtain ⟨l', -, h⟩ := Option.bind_eq_some_iff.1 h
    obtain rfl := Option.some.inj h
    exact ⟨cut, rfl, rfl⟩

theorem rest_length_of_read? {l : Layout} {point : Point} {c : Char} {cs : List Char}
    {s : Step} (h : read? l point c cs = some s) : s.rest.length ≤ cs.length := by
  rw [read?] at h
  split at h
  · obtain ⟨l', -, rfl⟩ := Option.map_eq_some_iff.1 h
    exact (List.drop_sublist 2 cs).length_le
  · split at h
    · obtain ⟨l', -, rfl⟩ := Option.map_eq_some_iff.1 h
      exact Nat.le_refl _
    · split at h
      · obtain ⟨cut, hcut, hrest⟩ := rest_of_scalar? h
        rw [hrest]
        exact Nat.le_of_lt (Quote.rest_length_of_scalar? hcut)
      · split at h
        · obtain ⟨cut, hcut, hrest⟩ := rest_of_scalar? h
          rw [hrest]
          exact Nat.le_of_lt (Quote.rest_length_of_scalar? hcut)
        · split at h
          · obtain ⟨cut, hcut, hrest⟩ := rest_of_scalar? h
            rw [hrest]
            exact rest_length_of_plain? hcut
          · cases h

/-- The tokens of a layout and of the text that follows it. -/
def scan? (l : Layout) (point : Point) (cs : List Char) : Option (List Token) :=
  match _hskip : skipSpace l.inFlow false l.keyAllowed point cs with
  | (keyAllowed, point, rest) =>
    match _hrest : rest, Layout.forgetStale { l with keyAllowed } point with
    | _, none => none
    | [], some l => l.finish
    | c :: cs, some l =>
      match _hread : read? (l.closeBlocks (point.column < ·)) point c cs with
      | none => none
      | some s => scan? s.layout s.point s.rest
termination_by cs.length
decreasing_by
  exact Nat.lt_of_lt_of_le (Nat.lt_succ_of_le (rest_length_of_read? _hread))
    (rest_length_of_skipSpace _hskip)

def ofText? (text : String) : Option (List Token) :=
  let cs := unifyBreaks (dropMark text.toList)
  if cs.all isPrintable then scan? .start .start cs else none

end Token

end Stencil.Yaml
