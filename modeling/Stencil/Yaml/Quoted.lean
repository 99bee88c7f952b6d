import Stencil.Json.Token
import Stencil.Yaml.Space

/-!
# Scalars in quotes

`Quote.scalar?` reads the rest of a scalar after its opening quote. Within quotes a scalar may go
on over any number of lines, however far they are indented, but not past a line that starts or
ends a document. Double quotes allow escapes, one of which hides a line break; in single quotes a
quote is written twice.
-/

namespace Stencil.Yaml

/-- A scalar that has been read: its text, whether line breaks follow it that belong to it, and
where the reading goes on. -/
structure Cut where
  text : List Char
  brokeLine : Bool
  point : Point
  rest : List Char

/-- The same cut with more text before it. -/
def Cut.precededBy (text : List Char) (cut : Cut) : Cut := { cut with text := text ++ cut.text }

@[simp] theorem Cut.rest_precededBy (text : List Char) (cut : Cut) :
    (cut.precededBy text).rest = cut.rest := rfl

inductive Quote where
  | single
  | double
  deriving Repr, DecidableEq

/-! ## Escapes -/

/-- What the character after a backslash stands for. -/
def escaped? : Char → Option Char
  | '0' => some '\x00'
  | 'a' => some '\x07'
  | 'b' => some '\x08'
  | 't' => some '\t'
  | '\t' => some '\t'
  | 'n' => some '\n'
  | 'v' => some '\x0b'
  | 'f' => some '\x0c'
  | 'r' => some '\r'
  | 'e' => some '\x1b'
  | ' ' => some ' '
  | '"' => some '"'
  | '/' => some '/'
  | '\\' => some '\\'
  | 'N' => some '\u0085'
  | '_' => some '\u00a0'
  | 'L' => some '\u2028'
  | 'P' => some '\u2029'
  | _ => none

/-- How many hexadecimal digits follow the character after a backslash. -/
def codeLength : Char → Nat
  | 'x' => 2
  | 'u' => 4
  | 'U' => 8
  | _ => 0

/-- The character with a code in hexadecimal. -/
def ofHex? (digits : List Char) : Option Char := do
  let code ← digits.foldlM (fun n c => (Json.Token.hexDigit? c).map (16 * n + ·)) 0
  if code.isValidChar then some (Char.ofNat code) else none

/-- What an escape means, and how many characters it takes after the backslash. -/
def escape? : List Char → Option (List Char × Nat)
  | [] => none
  | c :: cs =>
    let length := codeLength c
    if length = 0 then (escaped? c).map fun meaning => ([meaning], 1)
    else if cs.length < length then none
    else (ofHex? (cs.take length)).map fun meaning => ([meaning], length + 1)

/-! ## Pieces -/

namespace Quote

/-- Whether the character `c` is the closing quote. -/
def closedBy (q : Quote) (c : Char) (cs : List Char) : Bool :=
  match q with
  | single => c = '\'' && cs.head? ≠ some '\''
  | double => c = '"'

/-- The meaning of the piece of a scalar that starts with the character `c`, and how many
characters belong to it after that one. A piece is a character, an escape, or all that separates
two words; a backslash in front of a line break keeps the break from counting. -/
def piece? (q : Quote) (c : Char) (cs : List Char) : Option (List Char × Nat) :=
  let run := cs.takeWhile isSpace
  if isSpace c then some (foldSpace (c :: run), run.length)
  else
    match q with
    | single => some ([c], if c = '\'' then 1 else 0)
    | double =>
      if c ≠ '\\' then some ([c], 0)
      else if cs.head?.any isBreak then some ((run.drop 1).filter isBreak, run.length)
      else escape? cs

def scalar? (q : Quote) (point : Point) : List Char → Option Cut
  | [] => none
  | c :: cs =>
    if q.closedBy c cs then some ⟨[], false, point.next c, cs⟩
    else
      match q.piece? c cs with
      | none => none
      | some (meaning, more) =>
        let point := point.after (c :: cs.take more)
        if atDocumentMark point (cs.drop more) then none
        else (q.scalar? point (cs.drop more)).map (Cut.precededBy meaning)
termination_by cs => cs.length
decreasing_by
  simp only [List.length_drop, List.length_cons]
  omega

theorem rest_length_of_scalar? {q : Quote} {point : Point} {cs : List Char} {cut : Cut}
    (h : q.scalar? point cs = some cut) : cut.rest.length < cs.length := by
  fun_induction scalar? q point cs generalizing cut with
  | case1 => simp at h
  | case2 =>
    obtain rfl := Option.some.inj h
    exact Nat.lt_succ_self _
  | case3 => simp at h
  | case4 => simp at h
  | case5 =>
    rename_i ih
    obtain ⟨cut', hcut, rfl⟩ := Option.map_eq_some_iff.1 h
    have hlt := ih hcut
    rw [List.length_drop] at hlt
    rw [Cut.rest_precededBy, List.length_cons]
    omega

end Quote

end Stencil.Yaml
