/-
White space in the sense of the Unicode property White_Space, and trimming by it.

Texts are lists of characters throughout the library; a name or a message is a `String`.
-/

namespace WorkflowLint.Text

/-- the 25 characters with the property White_Space -/
def isBlank (c : Char) : Bool :=
  let n := c.toNat
  (0x09 ≤ n && n ≤ 0x0D) || n == 0x20 || n == 0x85 || n == 0xA0 || n == 0x1680 ||
    (0x2000 ≤ n && n ≤ 0x200A) || n == 0x2028 || n == 0x2029 || n == 0x202F || n == 0x205F ||
    n == 0x3000

/-- the text without leading white space -/
def trimStart (text : List Char) : List Char :=
  text.dropWhile isBlank

/-- the text without trailing white space -/
def trimEnd (text : List Char) : List Char :=
  (text.reverse.dropWhile isBlank).reverse

/-- the text without white space at either end -/
def trim (text : List Char) : List Char :=
  trimEnd (trimStart text)

/-- A space or a tab: the only white space that indents a line or pads a key. -/
def isIndent (c : Char) : Bool :=
  c == ' ' || c == '\t'

/-- A digit `0` to `9`. -/
def isDigit (c : Char) : Bool :=
  '0' ≤ c && c ≤ '9'

/-- A letter of the basic Latin alphabet. -/
def isLetter (c : Char) : Bool :=
  ('a' ≤ c && c ≤ 'z') || ('A' ≤ c && c ≤ 'Z')

/-- what may begin a word: a letter or an underscore -/
def startsWord (c : Char) : Bool :=
  isLetter c || c == '_'

/-- what may continue a word: a letter, a digit or an underscore -/
def continuesWord (c : Char) : Bool :=
  isLetter c || isDigit c || c == '_'

theorem continuesWord_of_startsWord {c : Char} (h : startsWord c = true) : continuesWord c = true := by
  simp only [startsWord, continuesWord, Bool.or_eq_true] at h ⊢
  rcases h with h | h
  · exact Or.inl (Or.inl h)
  · exact Or.inr h

end WorkflowLint.Text
