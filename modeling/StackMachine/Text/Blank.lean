/-!
# White space

`isBlank` is the Unicode property `White_Space`: the 25 characters that separate words and lines in
running text. It is wider than `Char.isWhitespace`, which knows four of them, and it leaves out the
characters without width (U+200B, U+FEFF) and the separators U+001C to U+001F.

`trimStart` and `trim` take the blanks off a text, from its start or from both ends.
-/

namespace StackMachine.Text

/-- The blanks as closed ranges of code points, ascending and apart. -/
def blankRanges : List (Nat × Nat) :=
  [(0x09, 0x0D), (0x20, 0x20), (0x85, 0x85), (0xA0, 0xA0), (0x1680, 0x1680), (0x2000, 0x200A),
   (0x2028, 0x2029), (0x202F, 0x202F), (0x205F, 0x205F), (0x3000, 0x3000)]

/-- Whether a character is white space. -/
def isBlank (c : Char) : Bool :=
  blankRanges.any fun r => r.1 ≤ c.toNat && c.toNat ≤ r.2

/-- Every character that `Char.isWhitespace` accepts is blank. -/
theorem isBlank_of_isWhitespace {c : Char} (h : c.isWhitespace = true) : isBlank c = true := by
  simp only [Char.isWhitespace, Bool.or_eq_true, decide_eq_true_eq] at h
  rcases h with ((rfl | rfl) | rfl) | rfl <;> decide

example : (blankRanges.map fun r => r.2 + 1 - r.1).sum = 25 := by decide

/-- The text from its first character that is not blank. -/
def trimStart (text : List Char) : List Char :=
  text.dropWhile isBlank

/-- The text without the blanks at its two ends. -/
def trim (text : List Char) : List Char :=
  ((trimStart text).reverse.dropWhile isBlank).reverse

end StackMachine.Text
