/-
Measuring text in the two encodings that coordinates are given in: offsets count bytes of UTF-8, columns count code
units of UTF-16.

`takeBytes` cuts at a byte offset and rounds down to a character, so it is total; `onBoundary` says whether rounding was
needed.
-/

namespace WorkflowLint.Text

/-- bytes of the text in UTF-8 -/
def utf8Length : List Char → Nat
  | [] => 0
  | c :: rest => c.utf8Size + utf8Length rest

/-- code units of one character in UTF-16 -/
def utf16Size (c : Char) : Nat :=
  if c.toNat < 0x10000 then 1 else 2

/-- code units of the text in UTF-16 -/
def utf16Length : List Char → Nat
  | [] => 0
  | c :: rest => utf16Size c + utf16Length rest

/-- the longest initial part of the text that fits in `n` bytes -/
def takeBytes : Nat → List Char → List Char
  | _, [] => []
  | n, c :: rest => if c.utf8Size ≤ n then c :: takeBytes (n - c.utf8Size) rest else []

/-- whether the byte offset `n` lies between two characters of the text or at one of its ends -/
def onBoundary (n : Nat) (text : List Char) : Bool :=
  utf8Length (takeBytes n text) == n

theorem utf8Length_append (a b : List Char) : utf8Length (a ++ b) = utf8Length a + utf8Length b := by
  induction a with
  | nil => simp [utf8Length]
  | cons c a ih => simp only [List.cons_append, utf8Length, ih]; omega

theorem utf16Length_append (a b : List Char) : utf16Length (a ++ b) = utf16Length a + utf16Length b := by
  induction a with
  | nil => simp [utf16Length]
  | cons c a ih => simp only [List.cons_append, utf16Length, ih]; omega

/-- Cutting after a whole initial part gives that part back. -/
theorem takeBytes_append (a b : List Char) : takeBytes (utf8Length a) (a ++ b) = a := by
  induction a with
  | nil =>
    cases b with
    | nil => rfl
    | cons c b =>
      have h : ¬ c.utf8Size ≤ 0 := by have := c.utf8Size_pos; omega
      simp [takeBytes, utf8Length, h]
  | cons c a ih => simp [takeBytes, utf8Length, ih]

end WorkflowLint.Text
