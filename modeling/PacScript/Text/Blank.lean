/-!
# Blanks

Blank characters are those with the Unicode property `White_Space`. Fields of a definition text
are trimmed of them at both ends.
-/

namespace PacScript.Text

/-- True for the twenty-five characters with the Unicode property `White_Space`. -/
def isBlank (c : Char) : Bool :=
  ('\t' ≤ c && c ≤ '\r') || c == ' ' || c == '\u0085' || c == '\u00a0' || c == '\u1680' ||
    ('\u2000' ≤ c && c ≤ '\u200a') || c == '\u2028' || c == '\u2029' || c == '\u202f' ||
    c == '\u205f' || c == '\u3000'

/-- A text without the blanks at its two ends. -/
def trim (text : List Char) : List Char :=
  ((text.dropWhile isBlank).reverse.dropWhile isBlank).reverse

/-- A blank text trims to nothing. -/
example : trim [' ', '\t', '\u3000'] = [] := by decide

/-- Blanks inside the text stay. -/
example : trim [' ', 'a', ' ', 'b', '\u2003'] = ['a', ' ', 'b'] := by decide

end PacScript.Text
