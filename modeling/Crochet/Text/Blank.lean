/-!
# Blank characters

The white space that may surround a word of a pattern, and trimming it off.  The set is the Unicode
property `White_Space`: the ASCII blanks, the no-break and typographic spaces, and the line and
paragraph separators.  Zero-width characters are not blank.

Texts are `List Char` throughout the library; `String` appears where a text enters or leaves it.
-/

namespace Crochet.Text

/-- The characters with the Unicode property `White_Space`. -/
def isBlank (c : Char) : Bool :=
  let n := c.toNat
  (0x9 ≤ n && n ≤ 0xD) || n == 0x20 || n == 0x85 || n == 0xA0 || n == 0x1680 ||
    (0x2000 ≤ n && n ≤ 0x200A) || n == 0x2028 || n == 0x2029 || n == 0x202F || n == 0x205F ||
    n == 0x3000

/-- A text without the blanks in front of it. -/
def trimStart (s : List Char) : List Char := s.dropWhile isBlank

/-- A text without the blanks behind it. -/
def trimEnd (s : List Char) : List Char := (s.reverse.dropWhile isBlank).reverse

/-- A text without the blanks around it. -/
def trim (s : List Char) : List Char := trimEnd (trimStart s)

/-- A text with its ASCII letters in upper case and every other character as it is. -/
def upper (s : List Char) : List Char := s.map Char.toUpper

/-- A text with its ASCII letters in lower case and every other character as it is. -/
def lower (s : List Char) : List Char := s.map Char.toLower

/-! ## Laws -/

/-- Every blank that core knows is blank. -/
theorem isBlank_of_isWhitespace {c : Char} (h : c.isWhitespace = true) : isBlank c = true := by
  simp only [Char.isWhitespace, Bool.or_eq_true, decide_eq_true_eq] at h
  rcases h with ((h | h) | h) | h <;> subst h <;> decide

@[simp] theorem trim_nil : trim [] = [] := rfl

end Crochet.Text
