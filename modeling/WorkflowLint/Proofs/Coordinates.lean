/-
Coordinates and byte offsets are two accounts of one place.

A position can be reached in two ways: by walking over the characters before it (`Position.advanceAll`), and by looking
its byte offset up in the table of lines (`LineTable.position`). The first adds up columns from wherever the walk begins,
the second starts again at the line that holds the offset.

Results:
- `Position.advanceAll_eq_translate`: a walk that begins at `origin` ends where the same walk from the top ends, moved to
  `origin`. Only the first line of the walk is moved sideways.
- `Position.lt_advanceAll`: a walk over at least one character leads strictly forwards, so `Range.between` never turns the
  ends of a walk around.
- `LineTable.position_append`: the table gives the end of the walk over what stands before the offset. An offset that is
  the length of an initial part of the text is all that is asked for: wide characters, line feeds and carriage returns play
  no part of their own.
-/
import Mathlib.Tactic.SplitIfs
import WorkflowLint.LineTable

namespace WorkflowLint

open WorkflowLint.Text

/-! ## Offsets between characters -/

namespace Text

theorem onBoundary_append (a b : List Char) : onBoundary (utf8Length a) (a ++ b) = true := by
  simp [onBoundary, takeBytes_append]

theorem takeBytes_zero (text : List Char) : takeBytes 0 text = [] := by
  simpa [utf8Length] using takeBytes_append [] text

/-- the character that begins at a byte offset -/
def charAt? (offset : Nat) (text : List Char) : Option Char :=
  (text.drop (takeBytes offset text).length).head?

/-- the character that ends at a byte offset -/
def charBefore? (offset : Nat) (text : List Char) : Option Char :=
  (takeBytes offset text).getLast?

theorem charAt?_append (a b : List Char) : charAt? (utf8Length a) (a ++ b) = b.head? := by
  simp [charAt?, takeBytes_append]

theorem charBefore?_append (a b : List Char) : charBefore? (utf8Length a) (a ++ b) = a.getLast? := by
  simp [charBefore?, takeBytes_append]

end Text

/-! ## Walks -/

namespace Position

/-- the place of `p`, counted from the beginning of a text, in a document where the text begins at `origin` -/
def translate (origin p : Position) : Position :=
  if p.line = 0 then ⟨origin.line, origin.character + p.character⟩ else ⟨origin.line + p.line, p.character⟩

theorem translate_zero (origin : Position) : origin.translate zero = origin := by
  simp [translate, zero]

theorem translate_line (origin p : Position) : (origin.translate p).line = origin.line + p.line := by
  unfold translate
  split_ifs with h
  · simp [h]
  · rfl

theorem translate_translate (origin p q : Position) :
    (origin.translate p).translate q = origin.translate (p.translate q) := by
  by_cases hq : q.line = 0
  · by_cases hp : p.line = 0
    · simp [translate, hp, hq, Nat.add_assoc]
    · simp [translate, hp, hq]
  · have hne : p.line + q.line ≠ 0 := by omega
    have hpq : p.translate q = ⟨p.line + q.line, q.character⟩ := if_neg hq
    calc (origin.translate p).translate q
        = ⟨(origin.translate p).line + q.line, q.character⟩ := if_neg hq
      _ = ⟨origin.line + (p.line + q.line), q.character⟩ := by rw [translate_line, Nat.add_assoc]
      _ = origin.translate ⟨p.line + q.line, q.character⟩ := (if_neg hne).symm
      _ = origin.translate (p.translate q) := by rw [hpq]

theorem translate_advance (origin p : Position) (c : Char) :
    (origin.translate p).advance c = origin.translate (p.advance c) := by
  by_cases hc : c = '\n'
  · have hline := translate_line origin p
    simp only [advance, hc, if_true, hline]
    simp [translate, Nat.add_assoc]
  · simp only [advance, hc, if_false, translate]
    split_ifs
    · simp [Nat.add_assoc]
    · rfl

theorem translate_advanceAll (origin p : Position) (text : List Char) :
    (origin.translate p).advanceAll text = origin.translate (p.advanceAll text) := by
  induction text generalizing p with
  | nil => rfl
  | cons c text ih =>
    show ((origin.translate p).advance c).advanceAll text = origin.translate ((p.advance c).advanceAll text)
    rw [translate_advance, ih]

/-- **Origins only translate.** A walk from `origin` ends where the walk from the top does, moved to `origin`. -/
theorem advanceAll_eq_translate (origin : Position) (text : List Char) :
    origin.advanceAll text = origin.translate (zero.advanceAll text) := by
  rw [← translate_advanceAll, translate_zero]

theorem lt_irrefl (p : Position) : ¬ p < p := by
  rintro (h | ⟨-, h⟩)
  · exact Nat.lt_irrefl _ h
  · exact Nat.lt_irrefl _ h

theorem lt_trans {p q r : Position} (hpq : p < q) (hqr : q < r) : p < r := by
  rcases hpq with h | ⟨h, h'⟩ <;> rcases hqr with k | ⟨k, k'⟩
  · exact Or.inl (Nat.lt_trans h k)
  · exact Or.inl (k ▸ h)
  · exact Or.inl (h ▸ k)
  · exact Or.inr ⟨h.trans k, Nat.lt_trans h' k'⟩

theorem lt_advance (p : Position) (c : Char) : p < p.advance c := by
  unfold advance
  split_ifs
  · exact Or.inl (Nat.lt_succ_self _)
  · refine Or.inr ⟨rfl, ?_⟩
    have : 0 < utf16Size c := by unfold utf16Size; split_ifs <;> decide
    exact Nat.lt_add_of_pos_right this

/-- A walk over at least one character leads strictly forwards. -/
theorem lt_advanceAll (p : Position) {text : List Char} (h : text ≠ []) : p < p.advanceAll text := by
  induction text generalizing p with
  | nil => exact absurd rfl h
  | cons c text ih =>
    show p < (p.advance c).advanceAll text
    by_cases ht : text = []
    · subst ht; exact lt_advance p c
    · exact lt_trans (lt_advance p c) (ih _ ht)

theorem not_advanceAll_lt (p : Position) (text : List Char) : ¬ p.advanceAll text < p := by
  intro h
  by_cases ht : text = []
  · subst ht; exact lt_irrefl p h
  · exact lt_irrefl p (lt_trans (lt_advanceAll p ht) h)

instance : LE Position where
  le p q := p < q ∨ p = q

theorem le_refl (p : Position) : p ≤ p :=
  Or.inr rfl

theorem lt_of_lt_of_le {p q r : Position} (hpq : p < q) (hqr : q ≤ r) : p < r := by
  rcases hqr with hqr | rfl
  · exact lt_trans hpq hqr
  · exact hpq

theorem le_trans {p q r : Position} (hpq : p ≤ q) (hqr : q ≤ r) : p ≤ r := by
  rcases hpq with hpq | rfl
  · exact Or.inl (lt_of_lt_of_le hpq hqr)
  · exact hqr

theorem le_advanceAll (p : Position) (text : List Char) : p ≤ p.advanceAll text := by
  by_cases ht : text = []
  · subst ht; exact le_refl p
  · exact Or.inl (lt_advanceAll p ht)

theorem lt_advanceAll_append (p : Position) (a : List Char) {b : List Char} (hb : b ≠ []) :
    p.advanceAll a < p.advanceAll (a ++ b) := by
  rw [advanceAll_append]
  exact lt_advanceAll _ hb

/-- Two initial parts of one text that end at the same place are the same. -/
theorem eq_of_advanceAll_eq {p : Position} {a b a' b' : List Char} (htext : a ++ b = a' ++ b')
    (hplace : p.advanceAll a = p.advanceAll a') : a = a' := by
  have hshort : ∀ {x y : List Char}, p.advanceAll x = p.advanceAll (x ++ y) → y = [] := by
    intro x y h
    by_cases hy : y = []
    · exact hy
    · have hlt := lt_advanceAll_append p x hy
      rw [← h] at hlt
      exact absurd hlt (lt_irrefl _)
  rcases List.append_eq_append_iff.1 htext with ⟨m, rfl, -⟩ | ⟨m, rfl, -⟩
  · rw [hshort hplace, List.append_nil]
  · rw [hshort hplace.symm, List.append_nil]

end Position

theorem Range.between_advanceAll (p : Position) (text : List Char) :
    Range.between p (p.advanceAll text) = ⟨p, p.advanceAll text⟩ :=
  if_neg (p.not_advanceAll_lt text)

/-! ## The table of lines -/

/-- A text has a first line, and it begins where the text does. -/
theorem linesFrom_eq_cons (start : Nat) (text : List Char) :
    ∃ chars lines, linesFrom start text = ⟨start, chars⟩ :: lines ∧ ∀ line ∈ lines, start < line.start := by
  induction text generalizing start with
  | nil => exact ⟨[], [], rfl, by simp⟩
  | cons c text ih =>
    obtain ⟨chars, lines, h, hlt⟩ := ih (start + c.utf8Size)
    have hpos := c.utf8Size_pos
    unfold linesFrom
    split_ifs with hc
    · refine ⟨[], _, rfl, fun line hl => ?_⟩
      rw [h] at hl
      rcases List.mem_cons.1 hl with rfl | hl
      · exact Nat.lt_add_of_pos_right hpos
      · have := hlt line hl; omega
    · rw [h]
      refine ⟨c :: chars, lines, rfl, fun line hl => ?_⟩
      have := hlt line hl; omega

namespace LineTable

theorem positionIn_eq_translate (offset n : Nat) (lines : List Line) :
    positionIn offset n lines = (⟨n, 0⟩ : Position).translate (positionIn offset 0 lines) := by
  induction lines generalizing n with
  | nil => simp [positionIn, Position.translate]
  | cons line lines ih =>
    cases lines with
    | nil => simp [positionIn, Position.translate]
    | cons next lines =>
      unfold positionIn
      split_ifs with h
      · rw [ih (n + 1), ih (0 + 1), ← Position.translate_translate]
        rfl
      · simp [Position.translate]

/-- A character put in front of the first line moves that line's columns and no other's. -/
theorem positionIn_cons_char {offset start : Nat} (c : Char) (chars : List Char) (lines : List Line)
    (h : start + c.utf8Size ≤ offset) :
    positionIn offset 0 (⟨start, c :: chars⟩ :: lines) =
      (⟨0, utf16Size c⟩ : Position).translate (positionIn offset 0 (⟨start + c.utf8Size, chars⟩ :: lines)) := by
  have hcol : utf16Length (takeBytes (offset - start) (c :: chars)) =
      utf16Size c + utf16Length (takeBytes (offset - (start + c.utf8Size)) chars) := by
    have hle : c.utf8Size ≤ offset - start := by omega
    rw [takeBytes, if_pos hle, utf16Length, Nat.sub_sub]
  cases lines with
  | nil => simp [positionIn, Position.translate, hcol]
  | cons next lines =>
    unfold positionIn
    split_ifs
    · have hline : (positionIn offset (0 + 1) (next :: lines)).line ≠ 0 := by
        rw [positionIn_eq_translate, Position.translate_line]; simp
      simp [Position.translate, hline]
    · simp [Position.translate, hcol]

theorem positionIn_append (start : Nat) (a b : List Char) :
    positionIn (start + utf8Length a) 0 (linesFrom start (a ++ b)) = Position.zero.advanceAll a := by
  induction a generalizing start with
  | nil =>
    obtain ⟨chars, lines, h, hlt⟩ := linesFrom_eq_cons start b
    rw [List.nil_append, h]
    cases lines with
    | nil => simp [positionIn, utf8Length, takeBytes_zero, utf16Length, Position.advanceAll, Position.zero]
    | cons next lines =>
      have hnext : ¬ next.start ≤ start := Nat.not_le.2 (hlt next List.mem_cons_self)
      simp [positionIn, utf8Length, hnext, takeBytes_zero, utf16Length, Position.advanceAll, Position.zero]
  | cons c a ih =>
    obtain ⟨chars, lines, h, -⟩ := linesFrom_eq_cons (start + c.utf8Size) (a ++ b)
    have hoff : start + utf8Length (c :: a) = start + c.utf8Size + utf8Length a := by
      rw [utf8Length]; omega
    have ih := ih (start + c.utf8Size)
    rw [h] at ih
    show _ = (Position.zero.advance c).advanceAll a
    rw [hoff, List.cons_append, linesFrom, h, Position.advanceAll_eq_translate, ← ih]
    split_ifs with hc
    · have hstart : start + c.utf8Size ≤ start + c.utf8Size + utf8Length a := Nat.le_add_right _ _
      rw [positionIn, if_pos hstart, positionIn_eq_translate]
      simp [Position.advance, hc, Position.zero]
    · rw [positionIn_cons_char c chars lines (Nat.le_add_right _ _)]
      simp [Position.advance, hc, Position.zero]

/-- **The table agrees with the walk.** The coordinates of the offset behind an initial part of a text are where the walk
over that part ends. -/
theorem position_append (a b : List Char) :
    (LineTable.ofText (a ++ b)).position (utf8Length a) = Position.zero.advanceAll a := by
  simpa [position, ofText] using positionIn_append 0 a b

end LineTable

end WorkflowLint
