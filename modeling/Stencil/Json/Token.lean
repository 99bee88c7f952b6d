import Stencil.Json.Numeral

/-!
# Words of JSON text

`Token.ofText?` cuts a text into brackets, marks, strings, numbers and the three constants, and
decodes them. It works through the text character by character; `Lexer` is what it has to
remember between two characters.
-/

namespace Stencil.Json

inductive Token where
  | openArray
  | closeArray
  | openObject
  | closeObject
  | colon
  | comma
  /-- A constant, a number or a string. -/
  | scalar (value : Json)
  deriving Repr

namespace Token

def isBlank (c : Char) : Bool := c = ' ' || c = '\t' || c = '\n' || c = '\r'

def ofMark? : Char → Option Token
  | '[' => some openArray
  | ']' => some closeArray
  | '\x7b' => some openObject
  | '\x7d' => some closeObject
  | ':' => some colon
  | ',' => some comma
  | _ => none

/-- The characters that numbers and constants are made of. -/
def isAtomChar (c : Char) : Bool := c.isAlphanum || c = '+' || c = '-' || c = '.'

def ofAtom? (cs : List Char) : Option Token :=
  let atom := String.ofList cs
  if atom = "null" then some (scalar .null)
  else if atom = "true" then some (scalar (.bool true))
  else if atom = "false" then some (scalar (.bool false))
  else (Numeral.read? cs).bind fun n => n.value?.map scalar

/-! ## Escapes in strings -/

def hexDigit? (c : Char) : Option Nat :=
  if c.isDigit then some (c.toNat - '0'.toNat)
  else if 'a' ≤ c ∧ c ≤ 'f' then some (c.toNat - 'a'.toNat + 10)
  else if 'A' ≤ c ∧ c ≤ 'F' then some (c.toNat - 'A'.toNat + 10)
  else none

def ofEscape? : Char → Option Char
  | '"' => some '"'
  | '\\' => some '\\'
  | '/' => some '/'
  | 'b' => some '\x08'
  | 'f' => some '\x0c'
  | 'n' => some '\n'
  | 'r' => some '\r'
  | 't' => some '\t'
  | _ => none

def isHighSurrogate (unit : Nat) : Bool := 0xD800 ≤ unit && unit < 0xDC00

def isLowSurrogate (unit : Nat) : Bool := 0xDC00 ≤ unit && unit < 0xE000

def joinSurrogates (high low : Nat) : Char :=
  Char.ofNat (0x10000 + (high - 0xD800) * 0x400 + (low - 0xDC00))

/-! ## The lexer -/

inductive Mode where
  | between
  /-- In a number or constant; its characters so far, last first, as in the modes below. -/
  | atom (read : List Char)
  | string (read : List Char)
  | escape (read : List Char)
  /-- In a four-digit escape: its digits so far, how many are to come, and the high half of a
  pair that the escape has to complete. -/
  | hex (read : List Char) (unit left : Nat) (high : Option Nat)
  /-- After the high half of a pair, before the escape of its low half. -/
  | pair (read : List Char) (high : Nat)
  | pairEscape (read : List Char) (high : Nat)

structure Lexer where
  mode : Mode
  /-- The tokens so far, last first. -/
  tokens : List Token

def Lexer.start : Lexer := ⟨.between, []⟩

/-- The mode after the last digit of an escape. -/
def Mode.ofUnit? (read : List Char) (unit : Nat) : Option Nat → Option Mode
  | some high =>
    if isLowSurrogate unit then some (.string (joinSurrogates high unit :: read)) else none
  | none =>
    if isHighSurrogate unit then some (.pair read unit)
    else if isLowSurrogate unit then none
    else some (.string (Char.ofNat unit :: read))

def Lexer.stepBetween (tokens : List Token) (c : Char) : Option Lexer :=
  if isBlank c then some ⟨.between, tokens⟩
  else if c = '"' then some ⟨.string [], tokens⟩
  else if isAtomChar c then some ⟨.atom [c], tokens⟩
  else (ofMark? c).map fun token => ⟨.between, token :: tokens⟩

def Lexer.step (l : Lexer) (c : Char) : Option Lexer :=
  match l.mode with
  | .between => stepBetween l.tokens c
  | .atom read =>
    if isAtomChar c then some { l with mode := .atom (c :: read) }
    else (ofAtom? read.reverse).bind fun token => stepBetween (token :: l.tokens) c
  | .string read =>
    if c = '"' then some ⟨.between, scalar (.string (String.ofList read.reverse)) :: l.tokens⟩
    else if c = '\\' then some { l with mode := .escape read }
    else if c.toNat < 0x20 then none
    else some { l with mode := .string (c :: read) }
  | .escape read =>
    if c = 'u' then some { l with mode := .hex read 0 4 none }
    else (ofEscape? c).map fun escaped => { l with mode := .string (escaped :: read) }
  | .hex read unit left high => do
    let digit ← hexDigit? c
    let unit := 16 * unit + digit
    if left = 1 then return { l with mode := ← Mode.ofUnit? read unit high }
    else return { l with mode := .hex read unit (left - 1) high }
  | .pair read high => if c = '\\' then some { l with mode := .pairEscape read high } else none
  | .pairEscape read high =>
    if c = 'u' then some { l with mode := .hex read 0 4 (some high) } else none

def Lexer.finish (l : Lexer) : Option (List Token) :=
  match l.mode with
  | .between => some l.tokens.reverse
  | .atom read => (ofAtom? read.reverse).map fun token => (token :: l.tokens).reverse
  | _ => none

def ofText? (text : String) : Option (List Token) :=
  text.toList.foldlM Lexer.step Lexer.start >>= Lexer.finish

end Token

end Stencil.Json
