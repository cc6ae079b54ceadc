/-
Diagnostics are read back from their JSON form.

A diagnostic can be read back if its lines and columns are words of 32 bits (`Diagnostic.Fits`), which is as far as the reader
goes. All that is found in a text does, if the text has fewer than 2^32 bytes: a position is where the walk over an initial part
of the text ends (`borders_iff`), or at the top, and each character of that part moves it on by no more than its bytes.

Results:
- `ofJson?_toJson`: what is read from the JSON form of a diagnostic is the diagnostic.
- `fits_of_mem_lint`: the diagnostics of a text fit.
-/
import WorkflowLint.Json
import WorkflowLint.Proofs.Endpoints

namespace WorkflowLint

open WorkflowLint.Text

/-! ## Reading back -/

/-- line and column are words of 32 bits -/
def Position.Fits (p : Position) : Prop :=
  p.line < Nat.pow 2 32 ∧ p.character < Nat.pow 2 32

/-- both ends of the range fit -/
def Diagnostic.Fits (diagnostic : Diagnostic) : Prop :=
  diagnostic.range.start.Fits ∧ diagnostic.range.stop.Fits

theorem Json.word?_int {n : Nat} (h : n < Nat.pow 2 32) : (Json.int n).word? = some n := by
  have hword : (0 : Int) ≤ n ∧ (n : Int) < Int.pow 2 32 := ⟨Int.natCast_nonneg n, by
    have hpow : Int.pow 2 32 = (Nat.pow 2 32 : Nat) := by decide
    rw [hpow]
    exact Int.ofNat_lt.2 h⟩
  rw [word?, if_pos hword, Int.toNat_natCast]

theorem Position.ofJson?_toJson {p : Position} (h : p.Fits) : Position.ofJson? p.toJson = some p := by
  have hfields : p.toJson.fields? ["line", "character"] = some [.int p.line, .int p.character] := rfl
  rw [ofJson?, hfields]
  simp only [Json.word?_int h.1, Json.word?_int h.2]
  rfl

theorem Range.ofJson?_toJson {range : Range} (hstart : range.start.Fits) (hstop : range.stop.Fits) :
    Range.ofJson? range.toJson = some range := by
  have hfields : range.toJson.fields? ["start", "end"] = some [range.start.toJson, range.stop.toJson] := rfl
  rw [ofJson?, hfields]
  simp only [Position.ofJson?_toJson hstart, Position.ofJson?_toJson hstop]
  rfl

namespace Diagnostic

/-- **A diagnostic is read back from its JSON form.** -/
theorem ofJson?_toJson {diagnostic : Diagnostic} (h : diagnostic.Fits) : ofJson? diagnostic.toJson = some diagnostic := by
  cases diagnostic with
  | lexical message position =>
    have hposition : position.Fits := h.1
    show lexicalOfJson? (lexical message position).toJson = _
    have hfields : (lexical message position).toJson.fields? ["message", "position"] =
        some [.str message, position.toJson] := rfl
    rw [lexicalOfJson?, hfields]
    simp only [Position.ofJson?_toJson hposition]
    rfl
  | structural message range =>
    have hrange : Range.ofJson? range.toJson = some range := Range.ofJson?_toJson h.1 h.2
    show structuralOfJson? (structural message range).toJson = _
    have hfields : (structural message range).toJson.fields? ["message", "range"] =
        some [.str message, range.toJson] := rfl
    rw [structuralOfJson?, hfields]
    simp only [hrange]
    rfl

end Diagnostic

/-! ## Positions in a text fit -/

theorem utf16Size_le_utf8Size (c : Char) : utf16Size c ≤ c.utf8Size := by
  by_cases hnarrow : c.toNat < 0x10000
  · rw [utf16Size, if_pos hnarrow]
    exact c.utf8Size_pos
  · have hone : c.utf8Size ≠ 1 := by
      intro hone
      have hsmall : c.toNat ≤ 127 := UInt32.le_iff_toNat_le.1 (Char.utf8Size_eq_one_iff.1 hone)
      omega
    have hpos := c.utf8Size_pos
    rw [utf16Size, if_neg hnarrow]
    omega

/-- A walk moves on by no more than its bytes. -/
theorem Position.advanceAll_le (p : Position) (text : List Char) :
    (p.advanceAll text).line ≤ p.line + utf8Length text ∧
      (p.advanceAll text).character ≤ p.character + utf8Length text := by
  induction text generalizing p with
  | nil => exact ⟨Nat.le_refl _, Nat.le_refl _⟩
  | cons c text ih =>
    have hstep : (p.advance c).line ≤ p.line + c.utf8Size ∧ (p.advance c).character ≤ p.character + c.utf8Size := by
      have hsize := utf16Size_le_utf8Size c
      have hpos := c.utf8Size_pos
      unfold advance
      split
      case isTrue => exact ⟨Nat.add_le_add_left hpos _, Nat.zero_le _⟩
      case isFalse => exact ⟨Nat.le_add_right _ _, Nat.add_le_add_left hsize _⟩
    obtain ⟨hline, hcharacter⟩ := ih (p.advance c)
    show ((p.advance c).advanceAll text).line ≤ _ ∧ ((p.advance c).advanceAll text).character ≤ _
    rw [utf8Length]
    omega

theorem Borders.fits {text : List Char} {p : Position} (h : Borders text p) (hshort : utf8Length text < Nat.pow 2 32) :
    p.Fits := by
  obtain ⟨before, after, rfl, rfl⟩ := borders_iff.1 h
  obtain ⟨hline, hcharacter⟩ := Position.zero.advanceAll_le before
  rw [utf8Length_append] at hshort
  have hzero : Position.zero.line = 0 ∧ Position.zero.character = 0 := ⟨rfl, rfl⟩
  exact ⟨by omega, by omega⟩

/-- **Diagnostics fit**, if the text is not too long. -/
theorem fits_of_mem_lint {text : List Char} {diagnostic : Diagnostic} (h : diagnostic ∈ lint text)
    (hshort : utf8Length text < Nat.pow 2 32) : diagnostic.Fits := by
  cases diagnostic with
  | lexical message position =>
    have hfits := (borders_of_lexical h).fits hshort
    exact ⟨hfits, hfits⟩
  | structural message range =>
    rcases Check.framed_of_cites (cites_of_structural h) with rfl | ⟨hstart, hstop⟩
    · obtain ⟨line, rest, -, -, htop⟩ := Layout.top_eq text
      have hwidth : min (utf16Length line) Layout.topWidth ≤ 10 := Nat.min_le_right _ _
      rw [htop]
      have hzero : 0 < Nat.pow 2 32 := Nat.two_pow_pos 32
      exact ⟨⟨hzero, hzero⟩, hzero, Nat.lt_of_le_of_lt hwidth (by decide)⟩
    · exact ⟨hstart.fits hshort, hstop.fits hshort⟩

end WorkflowLint
