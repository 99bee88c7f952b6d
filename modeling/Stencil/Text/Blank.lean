/-!
# Character classes

The three classes of characters that template text is cut by. Blanks are the characters with
the Unicode property `White_Space`; separators are the five blanks of ASCII that may end a
block keyword; word characters are the letters and digits of ASCII and the underscore, the
only ones a path is made of besides `@` and `.`.
-/

namespace Stencil.Text

/-- The code points with the property `White_Space`, as closed ranges in ascending order. -/
def blankRanges : List (Nat × Nat) :=
  [(0x09, 0x0D), (0x20, 0x20), (0x85, 0x85), (0xA0, 0xA0), (0x1680, 0x1680), (0x2000, 0x200A),
    (0x2028, 0x2029), (0x202F, 0x202F), (0x205F, 0x205F), (0x3000, 0x3000)]

def isBlank (c : Char) : Bool :=
  blankRanges.any fun (low, high) => low ≤ c.toNat && c.toNat ≤ high

/-- The characters that end a block keyword. A vertical tab is blank but does not separate. -/
def isSeparator (c : Char) : Bool :=
  c = ' ' || c = '\t' || c = '\n' || c = '\x0c' || c = '\r'

def isWordChar (c : Char) : Bool :=
  c.isAlphanum || c = '_'

/-- Every separator is a blank. -/
theorem isBlank_of_isSeparator {c : Char} (h : isSeparator c = true) : isBlank c = true := by
  simp only [isSeparator, Bool.or_eq_true, decide_eq_true_eq] at h
  rcases h with (((rfl | rfl) | rfl) | rfl) | rfl <;> rfl

/-- The table lists 25 code points. -/
example : (blankRanges.map fun (low, high) => high + 1 - low).sum = 25 := rfl

/-! ## Trimming -/

def trimStart (cs : List Char) : List Char := cs.dropWhile isBlank

/-- The text without the blanks at its two ends. -/
def trim (cs : List Char) : List Char :=
  (trimStart (trimStart cs).reverse).reverse

end Stencil.Text
