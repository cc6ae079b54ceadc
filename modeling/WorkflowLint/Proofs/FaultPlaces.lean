/-
A fault is reported at the very character that causes it.

Three computations have to agree for that: the table of lines, which turns the byte offset of an expression's body into a
position; the reading of the body, which goes on from that position character by character; and the byte offsets of the
document itself. `Fault.CauseAt` says, for each kind of fault, which character the document must have at an offset, and
`lexical_diagnostic_place` that every lexical diagnostic of a document is the position of such an offset, within the body
of one of its embedded expressions.
-/
import Mathlib.Data.List.Nodup
import WorkflowLint.Lint
import WorkflowLint.Proofs.Placement
import WorkflowLint.Proofs.Sites

namespace WorkflowLint

open WorkflowLint.Text WorkflowLint.Expression

namespace Expression

/-- The character of the document that causes a fault reported at the byte `offset`, in a body that ends at `stop`. A
missing fraction is reported behind its decimal point, which may be the end of the body. -/
def Fault.CauseAt (text : List Char) (offset stop : Nat) : Fault → Prop
  | unexpectedCharacter c => charAt? offset text = some c
  | unterminatedString => charAt? offset text = some '\'' ∨ charAt? offset text = some '"'
  | missingFraction =>
    charBefore? offset text = some '.' ∧ (offset < stop → ∀ d, charAt? offset text = some d → isDigit d = false)
  | unmatched bracket => charAt? offset text = some bracket.closer
  | unclosed bracket => charAt? offset text = some bracket.opener

/-- What a fault finds in a body is there in the document around the body. -/
theorem Fault.Meets.causeAt {fault : Fault} {front before after back : List Char} (h : fault.Meets before after) :
    fault.CauseAt (front ++ (before ++ after) ++ back) (utf8Length (front ++ before))
      (utf8Length front + utf8Length (before ++ after)) := by
  have htext : front ++ (before ++ after) ++ back = front ++ before ++ (after ++ back) := by simp
  have hat : ∀ c, after.head? = some c → (after ++ back).head? = some c := by
    intro c hc
    rw [List.head?_append, hc]; rfl
  rw [htext]
  cases fault with
  | unexpectedCharacter c => rw [Fault.CauseAt, charAt?_append]; exact hat c h
  | unterminatedString => rw [Fault.CauseAt, charAt?_append]; exact h.imp (hat _) (hat _)
  | missingFraction =>
    rw [Fault.CauseAt, charAt?_append, charBefore?_append, List.getLast?_append, h.1]
    refine ⟨rfl, fun hlt d hd => ?_⟩
    cases after with
    | nil => simp [utf8Length_append] at hlt
    | cons a after => exact h.2 d hd
  | unmatched bracket => rw [Fault.CauseAt, charAt?_append]; exact hat _ h
  | unclosed bracket => rw [Fault.CauseAt, charAt?_append]; exact hat _ h

/-! ## Wording -/

/-- the faults whose wording is fixed -/
def Fault.fixed : List Fault :=
  [unterminatedString, missingFraction] ++ Bracket.all.map unmatched ++ Bracket.all.map unclosed

theorem Fault.fixed_or_unexpected (fault : Fault) : fault ∈ fixed ∨ ∃ c, fault = unexpectedCharacter c := by
  cases fault with
  | unexpectedCharacter c => exact Or.inr ⟨c, rfl⟩
  | unterminatedString => exact Or.inl (by decide)
  | missingFraction => exact Or.inl (by decide)
  | unmatched bracket => left; cases bracket <;> decide
  | unclosed bracket => left; cases bracket <;> decide

theorem Fault.fixed_message_nodup : (fixed.map message).Nodup := by
  decide +kernel

theorem Fault.fixed_message_start : ∀ fault ∈ fixed, ¬ "Unexpected".toList <+: fault.message.toList := by
  decide +kernel

theorem prefix_toList_append {start a : String} (b : String) (h : start.toList <+: a.toList) :
    start.toList <+: (a ++ b).toList := by
  rw [String.toList_append]
  exact h.trans (List.prefix_append _ _)

theorem Fault.unexpectedCharacter_message_start (c : Char) :
    "Unexpected".toList <+: (unexpectedCharacter c).message.toList :=
  prefix_toList_append _ (by decide +kernel)

/-- Each fault has a wording of its own. -/
theorem Fault.message_injective : Function.Injective message := by
  intro a b h
  rcases a.fixed_or_unexpected with ha | ⟨c, rfl⟩ <;> rcases b.fixed_or_unexpected with hb | ⟨d, rfl⟩
  · exact List.inj_on_of_nodup_map fixed_message_nodup ha hb h
  · exact absurd (h ▸ unexpectedCharacter_message_start d) (fixed_message_start a ha)
  · exact absurd (h ▸ unexpectedCharacter_message_start c) (fixed_message_start b hb)
  · have hcd : String.singleton c = String.singleton d := (String.append_right_inj _).1 h
    have := congrArg String.toList hcd
    simpa using this

end Expression

/-! ## Diagnostics of a document -/

theorem Check.diagnostic_ne_lexical (findings : List Check.Finding) (message : String) (position : Position) :
    Diagnostic.lexical message position ∉ findings.map Check.Finding.diagnostic := by
  intro h
  obtain ⟨finding, -, hf⟩ := List.mem_map.1 h
  cases hf

/-- Only the expressions of a document have lexical diagnostics. -/
theorem mem_lint_lexical {text : List Char} {message : String} {position : Position}
    (h : Diagnostic.lexical message position ∈ lint text) :
    ∃ site ∈ sites text, ∃ error ∈ check ((LineTable.ofText text).position site.bodyStart) site.body,
      message = error.fault.message ∧ position = error.position := by
  rcases lint_cases text with ⟨fault, -, hlint⟩ | ⟨value, -, -, hlint⟩ | ⟨value, root, -, -, hlint⟩
  · rw [hlint] at h
    cases List.mem_singleton.1 h
  · rw [hlint] at h
    exact absurd h List.not_mem_nil
  · simp only [hlint, lintRoot, List.mem_append, Check.diagnostic_ne_lexical, or_false, false_or] at h
    obtain ⟨occurrence, ho, hd⟩ := List.mem_flatMap.1 h
    obtain ⟨site, hs, rfl⟩ := List.mem_map.1 ho
    obtain ⟨error, he, heq⟩ := List.mem_map.1 hd
    obtain ⟨rfl, rfl⟩ := Diagnostic.lexical.inj heq
    exact ⟨site, hs, error, he, rfl, rfl⟩

/-- **Lexical diagnostics stand at their cause.** Each belongs to an embedded expression, whose body stands in the document
where its site says. There is an offset between two characters of the document, in the body or at its end, whose position
is the one reported; the message is that of exactly one fault, and the document has the character that causes this fault
at the offset. -/
theorem lexical_diagnostic_place (text : List Char) (message : String) (position : Position)
    (h : Diagnostic.lexical message position ∈ lint text) :
    ∃ site ∈ sites text, site.occurrence (LineTable.ofText text) ∈ occurrences (LineTable.ofText text) ∧
      (∃ front back, text = front ++ site.body ++ back ∧ utf8Length front = site.bodyStart) ∧
      ∃ offset, onBoundary offset text = true ∧ site.bodyStart ≤ offset ∧ offset ≤ site.bodyStop ∧
        (LineTable.ofText text).position? offset = some position ∧
        ∃ fault : Fault, message = fault.message ∧ (∀ other : Fault, message = other.message → other = fault) ∧
          fault.CauseAt text offset site.bodyStop := by
  obtain ⟨site, hs, error, he, rfl, rfl⟩ := mem_lint_lexical h
  obtain ⟨front, back, ht, hf⟩ := Site.body_stands hs
  obtain ⟨before, after, hb, hp, hm⟩ := check_meets he
  have htext : text = front ++ before ++ (after ++ back) := by rw [ht, hb]; simp
  have hposition : (LineTable.ofText text).position (utf8Length (front ++ before)) = error.position := by
    have hstart : (LineTable.ofText text).position site.bodyStart = Position.zero.advanceAll front := by
      rw [ht, ← hf, List.append_assoc, LineTable.position_append]
    rw [hp, hstart, htext, LineTable.position_append, Position.advanceAll_append]
  have hboundary : onBoundary (utf8Length (front ++ before)) text = true := by
    rw [htext]; exact onBoundary_append _ _
  have hstop : site.bodyStop = utf8Length front + utf8Length (before ++ after) := by
    rw [Site.bodyStop, hf, hb]
  refine ⟨site, hs, List.mem_map_of_mem hs, ⟨front, back, ht, hf⟩, utf8Length (front ++ before), hboundary, ?_, ?_, ?_,
    error.fault, rfl, fun other ho => Fault.message_injective ho.symm, ?_⟩
  · rw [utf8Length_append, hf]; omega
  · rw [hstop, utf8Length_append, utf8Length_append]; omega
  · have hclamp : (LineTable.ofText text).clamp (utf8Length (front ++ before)) = utf8Length (front ++ before) := by
      refine Nat.min_eq_left ?_
      show _ ≤ utf8Length text
      rw [htext, utf8Length_append _ (after ++ back)]; omega
    rw [LineTable.position?, hclamp, hposition]
    exact if_pos hboundary
  · rw [hstop, ht, hb]; exact hm.causeAt

/-- a document with carriage returns and wide characters, whose only expression begins on the line before its body and
ends in a decimal point -/
def crossingDocument : List Char := "a: |\r\n  é😀 <%\r\n   😀 1.\t%>".toList

/-- **At the end of the body.** The point of `1.` is the last character of the body, on the third line and behind a
character of two units; the fault is reported right behind it. -/
theorem dangling_point_place :
    Diagnostic.lexical "Expected digit after decimal point" ⟨2, 8⟩ ∈ lint crossingDocument ∧
      ∃ offset, (LineTable.ofText crossingDocument).position? offset = some ⟨2, 8⟩ ∧
        charBefore? offset crossingDocument = some '.' := by
  have h : Diagnostic.lexical "Expected digit after decimal point" ⟨2, 8⟩ ∈ lint crossingDocument := by decide +kernel
  refine ⟨h, ?_⟩
  obtain ⟨site, -, -, -, offset, -, -, -, hp, fault, -, huniq, hc⟩ := lexical_diagnostic_place _ _ _ h
  obtain rfl : Fault.missingFraction = fault := huniq .missingFraction rfl
  exact ⟨offset, hp, hc.1⟩

end WorkflowLint
