import Stencil.Json.Token

/-!
# Words of a settings file

`Token.ofText?` cuts a TOML text into words, strings, equals signs and line ends, and leaves out
comments. A word is anything written without quotes: a key, a number or a truth value. The text
is worked through character by character; `Lexer` is what has to be remembered in between.
-/

namespace Stencil.Toml

inductive Token where
  | word (text : String)
  | string (text : String)
  /-- A string in triple quotes, which can be a value but not a key. -/
  | longString (text : String)
  | equals
  | lineEnd
  deriving Repr, DecidableEq

namespace Token

/-- Strings in double quotes have escapes, those in single quotes have none. -/
inductive Quote where
  | double
  | single
  deriving Repr, DecidableEq

def Quote.char : Quote → Char
  | double => '"'
  | single => '\''

def quote? (c : Char) : Option Quote :=
  if c = '"' then some .double else if c = '\'' then some .single else none

/-- Where the lexer is. Characters read so far are kept last first. -/
inductive Mode where
  | between
  | comment
  | word (read : List Char)
  /-- After so many quotes, one or two, of which it is not known yet how long a string they
  start. -/
  | opening (quote : Quote) (count : Nat)
  | short (quote : Quote) (read : List Char)
  /-- In a string in triple quotes, after so many quotes in a row. -/
  | long (quote : Quote) (read : List Char) (quotes : Nat)
  /-- Right after the triple quotes that open a string, where one line end does not count. -/
  | longStart (quote : Quote)
  | escape (isLong : Bool) (read : List Char)
  /-- In an escape with a code: the code so far and how many digits are to come. -/
  | code (isLong : Bool) (read : List Char) (code left : Nat)
  /-- After a backslash in front of blanks that have to end in a line end. -/
  | continuation (read : List Char)
  /-- In the blanks after such a line end. -/
  | skipping (read : List Char)

structure Lexer where
  mode : Mode
  /-- The tokens so far, last first. -/
  tokens : List Token

def Lexer.start : Lexer := ⟨.between, []⟩

def isBlank (c : Char) : Bool := c = ' ' || c = '\t'

def isWordChar (c : Char) : Bool := c.isAlphanum || "_-+.:".toList.contains c

/-- Control characters other than the tab may stand nowhere. -/
def isControl (c : Char) : Bool := (c < ' ' && c ≠ '\t') || c = '\x7f'

def ofChars (read : List Char) : String := String.ofList read.reverse

def escaped? : Char → Option Char
  | 'b' => some '\x08'
  | 't' => some '\t'
  | 'n' => some '\n'
  | 'f' => some '\x0c'
  | 'r' => some '\r'
  | '"' => some '"'
  | '\\' => some '\\'
  | _ => none

/-- The mode in a string with escapes. -/
def Mode.inString (isLong : Bool) (read : List Char) : Mode :=
  if isLong then .long .double read 0 else .short .double read

namespace Lexer

def stepBetween (tokens : List Token) (c : Char) : Option Lexer :=
  if isBlank c then some ⟨.between, tokens⟩
  else if c = '\n' then some ⟨.between, lineEnd :: tokens⟩
  else if c = '#' then some ⟨.comment, tokens⟩
  else if c = '=' then some ⟨.between, equals :: tokens⟩
  else if isWordChar c then some ⟨.word [c], tokens⟩
  else (quote? c).map fun quote => ⟨.opening quote 1, tokens⟩

def stepComment (tokens : List Token) (c : Char) : Option Lexer :=
  if c = '\n' then some ⟨.between, lineEnd :: tokens⟩
  else if isControl c then none
  else some ⟨.comment, tokens⟩

def stepShort (tokens : List Token) (quote : Quote) (read : List Char) (c : Char) :
    Option Lexer :=
  if c = quote.char then some ⟨.between, string (ofChars read) :: tokens⟩
  else if isControl c then none
  else if c = '\\' ∧ quote = .double then some ⟨.escape false read, tokens⟩
  else some ⟨.short quote (c :: read), tokens⟩

/-- The string that ends with `quotes` quotes, the last three of which close it. -/
def closeLong (tokens : List Token) (quote : Quote) (read : List Char) (quotes : Nat) : Lexer :=
  ⟨.between, longString (ofChars (List.replicate (quotes - 3) quote.char ++ read)) :: tokens⟩

def stepLong (tokens : List Token) (quote : Quote) (read : List Char) (quotes : Nat) (c : Char) :
    Option Lexer :=
  let read' := List.replicate quotes quote.char ++ read
  if c = quote.char then if quotes < 5 then some ⟨.long quote read (quotes + 1), tokens⟩ else none
  else if 3 ≤ quotes then stepBetween (closeLong tokens quote read quotes).tokens c
  else if c = '\\' ∧ quote = .double then some ⟨.escape true read', tokens⟩
  else if isControl c ∧ c ≠ '\n' then none
  else some ⟨.long quote (c :: read') 0, tokens⟩

def stepEscape (tokens : List Token) (isLong : Bool) (read : List Char) (c : Char) :
    Option Lexer :=
  if c = 'u' then some ⟨.code isLong read 0 4, tokens⟩
  else if c = 'U' then some ⟨.code isLong read 0 8, tokens⟩
  else if isLong && c = '\n' then some ⟨.skipping read, tokens⟩
  else if isLong && isBlank c then some ⟨.continuation read, tokens⟩
  else (escaped? c).map fun escaped => ⟨.inString isLong (escaped :: read), tokens⟩

def stepCode (tokens : List Token) (isLong : Bool) (read : List Char) (code left : Nat)
    (c : Char) : Option Lexer := do
  let code := 16 * code + (← Json.Token.hexDigit? c)
  if left = 1 then
    if code.isValidChar then some ⟨.inString isLong (Char.ofNat code :: read), tokens⟩ else none
  else some ⟨.code isLong read code (left - 1), tokens⟩

def step (l : Lexer) (c : Char) : Option Lexer :=
  match l.mode with
  | .between => stepBetween l.tokens c
  | .comment => stepComment l.tokens c
  | .word read =>
    if isWordChar c then some ⟨.word (c :: read), l.tokens⟩
    else stepBetween (word (ofChars read) :: l.tokens) c
  | .opening quote count =>
    if c = quote.char then
      if count = 1 then some ⟨.opening quote 2, l.tokens⟩ else some ⟨.longStart quote, l.tokens⟩
    else if count = 1 then stepShort l.tokens quote [] c
    else stepBetween (string "" :: l.tokens) c
  | .short quote read => stepShort l.tokens quote read c
  | .longStart quote =>
    if c = '\n' then some ⟨.long quote [] 0, l.tokens⟩ else stepLong l.tokens quote [] 0 c
  | .long quote read quotes => stepLong l.tokens quote read quotes c
  | .escape isLong read => stepEscape l.tokens isLong read c
  | .code isLong read code left => stepCode l.tokens isLong read code left c
  | .continuation read =>
    if c = '\n' then some ⟨.skipping read, l.tokens⟩
    else if isBlank c then some l
    else none
  | .skipping read =>
    if isBlank c ∨ c = '\n' then some l else stepLong l.tokens .double read 0 c

def finish (l : Lexer) : Option (List Token) :=
  match l.mode with
  | .between => some l.tokens.reverse
  | .comment => some l.tokens.reverse
  | .word read => some (word (ofChars read) :: l.tokens).reverse
  | .opening _ 2 => some (string "" :: l.tokens).reverse
  | .long quote read quotes =>
    if 3 ≤ quotes then some (closeLong l.tokens quote read quotes).tokens.reverse else none
  | _ => none

end Lexer

/-- Line ends of two characters count as one. -/
def unifyBreaks : List Char → List Char
  | '\x0d' :: '\n' :: cs => '\n' :: unifyBreaks cs
  | c :: cs => c :: unifyBreaks cs
  | [] => []

/-- A byte order mark at the start of a text says nothing about it. -/
def dropMark (cs : List Char) : List Char :=
  if cs.head? = some '\ufeff' then cs.drop 1 else cs

def ofText? (text : String) : Option (List Token) :=
  (unifyBreaks (dropMark text.toList)).foldlM Lexer.step Lexer.start >>= Lexer.finish

end Token

end Stencil.Toml
