/-
What becomes of an opening mark that is closed.

An opening mark `<%` that does not lie inside an earlier occurrence, and behind which there is a closing mark, makes a pair
with the first closing one. `PairsExtracted` asks that every such pair be extracted, with what trimming leaves between its
marks as body, however many lines that takes. It does not hold: `pair_over_two_lines_missed` has a pair whose body is two lines
long, and the document has no occurrence at all.

`pair_extracted_or_uncovered` says what holds of every pair. If what trimming leaves keeps to one line, the pair is extracted
with exactly its range, and line breaks next to the marks do no harm. If it does not, no occurrence has the opening mark in its
range, so nothing that is said inside the pair is ever checked.

Both directions go by the search (`Search`): whatever it finds was there to be found (`Search.exists_place`), and what is there
to be found is either found or lies inside something that was found before (`Search.mem_of_finds`).
-/
import WorkflowLint.Proofs.Extraction

namespace WorkflowLint

open WorkflowLint.Text

namespace Expression

/-! ## What a search finds and misses -/

/-- Whatever a search finds stands at some place. -/
theorem Search.exists_place {finds : Finder} {front rest : List Char} {found : List Occurrence}
    (h : Search finds front rest found) {occurrence : Occurrence} (hmem : occurrence ∈ found) :
    ∃ skipped used after, rest = skipped ++ (used ++ after) ∧
      finds (front ++ skipped) (used ++ after) used occurrence := by
  induction h with
  | done => exact absurd hmem List.not_mem_nil
  | @next front rest skipped used after other found hr hfinds _ _ ih =>
    rcases List.mem_cons.1 hmem with rfl | hlater
    · exact ⟨skipped, used, after, hr, hfinds⟩
    · obtain ⟨skipped', used', after', ha, hf⟩ := ih hlater
      refine ⟨skipped ++ used ++ skipped', used', after', ?_, ?_⟩
      · rw [hr, ha]
        simp only [List.append_assoc]
      · simpa only [List.append_assoc] using hf

/-- A place lies inside an occurrence that begins before it. -/
def Within (occurrence : Occurrence) (place : Position) : Prop :=
  occurrence.range.start < place ∧ place < occurrence.range.stop

instance (occurrence : Occurrence) (place : Position) : Decidable (Within occurrence place) :=
  inferInstanceAs (Decidable (_ ∧ _))

/-- **A search misses nothing.** What there is to be found at a place is found, unless the place lies inside what is found
before. -/
theorem Search.mem_of_finds {front rest : List Char} {found : List Occurrence} (h : Search FirstClose front rest found)
    {skipped used after : List Char} {occurrence : Occurrence} (hrest : rest = skipped ++ (used ++ after))
    (hfinds : FirstClose (front ++ skipped) (used ++ after) used occurrence)
    (hfree : ∀ other ∈ found, ¬ Within other (Position.zero.advanceAll (front ++ skipped))) : occurrence ∈ found := by
  induction h generalizing skipped with
  | done hno => exact absurd hfinds (hno _ _ _ _ hrest)
  | @next front rest skipped' used' after' other found hr hother hfirst _ ih =>
    rcases Nat.lt_trichotomy skipped.length skipped'.length with hlt | heq | hgt
    · -- the search would have stopped here first
      exact absurd hfinds (hfirst _ _ _ _ hrest hlt)
    · obtain ⟨rfl, hsame⟩ := List.append_inj (hrest.symm.trans hr) heq
      rw [hsame] at hfinds
      obtain ⟨-, rfl⟩ := firstClose_functional _ _ _ _ _ _ hfinds hother
      exact List.mem_cons_self
    · -- the search stops earlier, and takes either some of the text before the place or all of it
      obtain ⟨gap, rfl⟩ : ∃ gap, skipped = skipped' ++ gap := by
        rcases List.append_eq_append_iff.1 (hrest.symm.trans hr) with ⟨m, hm, -⟩ | ⟨m, hm, -⟩
        · rw [hm, List.length_append] at hgt
          omega
        · exact ⟨m, hm⟩
      have hgap : gap ≠ [] := by
        rintro rfl
        simp at hgt
      have hbehind : gap ++ (used ++ after) = used' ++ after' := by
        have htext := hrest.symm.trans hr
        rw [List.append_assoc] at htext
        exact List.append_cancel_left htext
      rw [← List.append_assoc] at hfinds hfree
      rcases List.append_eq_append_iff.1 hbehind with ⟨more, hused, -⟩ | ⟨more, hgap', hafter⟩
      · by_cases hmore : more = []
        · subst hmore
          rw [List.append_nil] at hused
          subst hused
          obtain rfl := List.append_cancel_left hbehind
          apply List.mem_cons_of_mem
          apply ih (List.nil_append _).symm
          · rwa [List.append_nil]
          · intro another hanother
            rw [List.append_nil]
            exact hfree another (List.mem_cons_of_mem _ hanother)
        · -- the place is inside the occurrence found here
          have hwithin : Within other (Position.zero.advanceAll (front ++ skipped' ++ gap)) := by
            rw [Within, hother.range.1]
            constructor
            · exact Position.lt_advanceAll_append _ _ hgap
            · rw [hused, ← List.append_assoc]
              exact Position.lt_advanceAll_append _ _ hmore
          exact absurd hwithin (hfree other List.mem_cons_self)
      · subst hgap'
        apply List.mem_cons_of_mem
        rw [← List.append_assoc (front ++ skipped')] at hfinds hfree
        apply ih hafter hfinds
        intro another hanother
        exact hfree another (List.mem_cons_of_mem _ hanother)

/-! ## Pairs of marks -/

/-- a pair of marks with the text between them -/
def marked (inside : List Char) : List Char :=
  '<' :: '%' :: inside ++ ['%', '>']

/-- where the pair stands behind `before`, in a text that goes on with `after` -/
def pairRange (before inside after : List Char) : Range :=
  let table := LineTable.ofText (before ++ (marked inside ++ after))
  ⟨table.position (utf8Length before), table.position (utf8Length (before ++ marked inside))⟩

/-- Every pair that does not begin inside an earlier occurrence is extracted, with what trimming leaves as its body. -/
def PairsExtracted (text : List Char) : Prop :=
  ∀ before inside after, text = before ++ (marked inside ++ after) → ¬ ['%', '>'] <:+: inside →
    (∀ other ∈ occurrences (LineTable.ofText text), ¬ Within other (pairRange before inside after).start) →
    ∃ occurrence ∈ occurrences (LineTable.ofText text),
      occurrence.range.start ≤ (pairRange before inside after).start ∧
      (pairRange before inside after).stop ≤ occurrence.range.stop ∧ occurrence.body = trim inside

/-- **A pair over two lines is missed.** Its body breaks between `a` and `b`. -/
theorem pair_over_two_lines_missed : ¬ PairsExtracted "<% a\nb %>".toList := by
  intro h
  have hnone : occurrences (LineTable.ofText "<% a\nb %>".toList) = [] := by decide
  obtain ⟨occurrence, hmem, -⟩ := h [] " a\nb ".toList [] rfl (by decide) (by decide)
  rw [hnone] at hmem
  exact List.not_mem_nil hmem

theorem pairRange_eq (before inside after : List Char) :
    pairRange before inside after =
      ⟨Position.zero.advanceAll before, Position.zero.advanceAll (before ++ marked inside)⟩ := by
  rw [pairRange, LineTable.position_append, ← List.append_assoc, LineTable.position_append]

/-- What there is to be found at the opening mark of a pair. -/
theorem firstClose_marked {before inside after : List Char} (hfirst : ¬ ['%', '>'] <:+: inside)
    (hline : '\n' ∉ trim inside) :
    FirstClose before (marked inside ++ after) (marked inside)
      (occurrenceAt before (marked inside ++ after) (marked inside) (inside.takeWhile isBlank) (trim inside)) :=
  ⟨inside, after, by simp [marked], rfl, hfirst, hline, rfl⟩

/-- Nothing is found at the opening mark of a pair over several lines. -/
theorem not_firstClose_marked {before inside after : List Char} (hfirst : ¬ ['%', '>'] <:+: inside)
    (hline : '\n' ∈ trim inside) (used : List Char) (occurrence : Occurrence) :
    ¬ FirstClose before (marked inside ++ after) used occurrence := by
  rintro ⟨inside', after', htext, -, hfirst', hline', -⟩
  have hinside : inside ++ '%' :: '>' :: after = inside' ++ '%' :: '>' :: after' := by
    simpa [marked] using htext
  have hclose := beforeClose_of_first_close after hfirst
  rw [hinside, beforeClose_of_first_close after' hfirst'] at hclose
  obtain rfl := Option.some.inj hclose
  exact hline' hline

/-- **What becomes of a pair of marks.** Take a pair that does not begin inside an earlier occurrence. If what trimming leaves
between its marks keeps to one line, the pair is extracted: with its own range, that text as body, and the place of the
body's first character. If it does not, the opening mark is in the range of no occurrence. -/
theorem pair_extracted_or_uncovered (before inside after : List Char) (hfirst : ¬ ['%', '>'] <:+: inside)
    (hfree : ∀ other ∈ occurrences (LineTable.ofText (before ++ (marked inside ++ after))),
      ¬ Within other (pairRange before inside after).start) :
    let table := LineTable.ofText (before ++ (marked inside ++ after))
    let pair := pairRange before inside after
    ('\n' ∉ trim inside →
      ⟨trim inside, pair, table.position (utf8Length (before ++ '<' :: '%' :: inside.takeWhile isBlank))⟩ ∈
        occurrences table) ∧
    ('\n' ∈ trim inside →
      ∀ occurrence ∈ occurrences table, ¬ (occurrence.range.start ≤ pair.start ∧ pair.start < occurrence.range.stop)) := by
  intro table pair
  have hsearch : Search FirstClose [] (before ++ (marked inside ++ after)) (occurrences table) :=
    search_firstClose_iff.2 rfl
  have hstart : pair.start = Position.zero.advanceAll before := by
    show (pairRange before inside after).start = _
    rw [pairRange_eq]
  constructor
  · intro hline
    refine hsearch.mem_of_finds rfl (firstClose_marked hfirst hline) ?_
    intro other hother
    rw [List.nil_append, ← hstart]
    exact hfree other hother
  · rintro hline occurrence hmem ⟨hle, hlt⟩
    obtain ⟨before', used, after', htext, hfinds⟩ := hsearch.exists_place hmem
    rw [List.nil_append] at hfinds
    -- an occurrence that has the mark in its range begins at the mark
    have hat : occurrence.range.start = pair.start := by
      rcases hle with hbefore | heq
      · exact absurd ⟨hbefore, hlt⟩ (hfree occurrence hmem)
      · exact heq
    rw [hfinds.range.1, hstart] at hat
    obtain rfl := Position.eq_of_advanceAll_eq htext hat.symm
    rw [← List.append_cancel_left htext] at hfinds
    exact not_firstClose_marked hfirst hline _ _ hfinds

/-- Line breaks next to the marks do no harm; one in the middle does. -/
theorem padded_pair_extracted :
    (⟨"$.x".toList, ⟨⟨0, 0⟩, ⟨2, 2⟩⟩, ⟨1, 1⟩⟩ : Occurrence) ∈
        occurrences (LineTable.ofText "<%\n $.x\n%> <% y\nz %>".toList) ∧
      ∀ occurrence ∈ occurrences (LineTable.ofText "<%\n $.x\n%> <% y\nz %>".toList),
        ¬ (occurrence.range.start ≤ ⟨2, 3⟩ ∧ ⟨2, 3⟩ < occurrence.range.stop) := by
  constructor
  · exact (pair_extracted_or_uncovered [] "\n $.x\n".toList " <% y\nz %>".toList (by decide) (by decide)).1 (by decide)
  · exact (pair_extracted_or_uncovered "<%\n $.x\n%> ".toList " y\nz ".toList [] (by decide) (by decide)).2 (by decide)

end Expression

end WorkflowLint
