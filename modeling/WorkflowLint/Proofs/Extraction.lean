/-
Embedded expressions are what a search from left to right finds between their marks.

Two accounts of what is found at an opening mark are given, apart from the scan that runs:
- `FirstClose`: the text up to the first closing mark counts, if trimming leaves no line feed in it.
- `PatternMatch`: the pattern `<%\s*(.*?)\s*%>` is matched, with white space taken as long as possible, the body between as
  short as possible, and the earlier choice deciding before the later one. `Way` lists the ways to match, `Preferred` orders
  them.
`Search` repeatedly takes the first place at which something is found and goes on behind it.

The two accounts agree (`patternMatch_iff_firstClose`). White space in front of the body can be taken as a whole, since giving
some of it back only makes the body longer; the body cannot end before the last character that is not blank, and it cannot
reach behind the first closing mark, because with what comes before that mark it would already match. Where trimming leaves a
line feed, no way of matching gets past it.

`occurrences_iff_search`: the occurrences of a document are what the search finds by either account.
-/
import Mathlib.Data.List.Infix
import WorkflowLint.Proofs.Sites

namespace WorkflowLint.Expression

open WorkflowLint.Text

/-! ## Searching -/

/-- What is found at the front of `rest`, with `front` before it: the characters it takes, and the occurrence. -/
abbrev Finder := (front rest used : List Char) → Occurrence → Prop

/-- what a search of `rest`, with `front` before it, finds in turn -/
inductive Search (finds : Finder) : (front rest : List Char) → List Occurrence → Prop where
  | done {front rest : List Char} :
      (∀ skipped after used occurrence, rest = skipped ++ after → ¬ finds (front ++ skipped) after used occurrence) →
      Search finds front rest []
  | next {front rest skipped used after : List Char} {occurrence : Occurrence} {found : List Occurrence} :
      rest = skipped ++ (used ++ after) → finds (front ++ skipped) (used ++ after) used occurrence →
      (∀ skipped' after' used' occurrence', rest = skipped' ++ after' → skipped'.length < skipped.length →
        ¬ finds (front ++ skipped') after' used' occurrence') →
      Search finds (front ++ skipped ++ used) after found → Search finds front rest (occurrence :: found)

/-- at most one thing is found at a place -/
def Finder.Functional (finds : Finder) : Prop :=
  ∀ front rest used occurrence used' occurrence', finds front rest used occurrence →
    finds front rest used' occurrence' → used = used' ∧ occurrence = occurrence'

/-- A search has one outcome. -/
theorem Search.unique {finds : Finder} (hf : finds.Functional) {front rest : List Char} {found found' : List Occurrence}
    (h : Search finds front rest found) (h' : Search finds front rest found') : found = found' := by
  induction h generalizing found' with
  | done hno =>
    cases h' with
    | done => rfl
    | next hr hfinds => exact absurd hfinds (hno _ _ _ _ hr)
  | next hr hfinds hfirst _ ih =>
    cases h' with
    | done hno => exact absurd hfinds (hno _ _ _ _ hr)
    | next hr' hfinds' hfirst' hrest' =>
      -- neither of the two places is before the other
      have hle := Nat.le_of_not_lt fun hlt => hfirst _ _ _ _ hr' hlt hfinds'
      have hge := Nat.le_of_not_lt fun hlt => hfirst' _ _ _ _ hr hlt hfinds
      obtain ⟨rfl, hrest⟩ := List.append_inj (hr.symm.trans hr') (Nat.le_antisymm hle hge)
      rw [← hrest] at hfinds'
      obtain ⟨rfl, rfl⟩ := hf _ _ _ _ _ _ hfinds hfinds'
      obtain rfl := List.append_cancel_left hrest
      rw [ih hrest']

theorem Search.congr {finds finds' : Finder}
    (heq : ∀ front rest used occurrence, finds front rest used occurrence ↔ finds' front rest used occurrence)
    {front rest : List Char} {found : List Occurrence} (h : Search finds front rest found) :
    Search finds' front rest found := by
  induction h with
  | done hno => exact .done fun skipped after used occurrence hr hf => hno _ _ _ _ hr ((heq _ _ _ _).2 hf)
  | next hr hfinds hfirst _ ih =>
    exact .next hr ((heq _ _ _ _).1 hfinds) (fun _ _ _ _ hr' hlt hf => hfirst _ _ _ _ hr' hlt ((heq _ _ _ _).2 hf)) ih

/-- A search that finds something where it begins goes on behind it. -/
theorem Search.take {finds : Finder} {front used after : List Char} {occurrence : Occurrence} {found : List Occurrence}
    (hfinds : finds front (used ++ after) used occurrence) (h : Search finds (front ++ used) after found) :
    Search finds front (used ++ after) (occurrence :: found) := by
  have hnone : used ++ after = [] ++ (used ++ after) := rfl
  refine .next hnone ?_ (fun _ _ _ _ _ hlt => absurd hlt (Nat.not_lt_zero _)) ?_
  · rwa [List.append_nil]
  · rwa [List.append_nil]

/-- A search that finds nothing at a character goes on behind it. -/
theorem Search.pass {finds : Finder} {front rest : List Char} {c : Char} {found : List Occurrence}
    (hno : ∀ used occurrence, ¬ finds front (c :: rest) used occurrence) (h : Search finds (front ++ [c]) rest found) :
    Search finds front (c :: rest) found := by
  -- a place behind `c` is the same place in the search that goes on
  have hshift : ∀ {skipped after used : List Char} {occurrence : Occurrence},
      ¬ finds (front ++ [c] ++ skipped) after used occurrence → ¬ finds (front ++ c :: skipped) after used occurrence := by
    intro skipped after used occurrence hn
    rwa [List.append_assoc] at hn
  cases h with
  | done hrest =>
    refine .done fun skipped after used occurrence hr => ?_
    cases skipped with
    | nil =>
      obtain rfl : c :: rest = after := hr
      simpa using hno used occurrence
    | cons d skipped =>
      obtain ⟨rfl, hbehind⟩ := List.cons.inj hr
      exact hshift (hrest _ _ _ _ hbehind)
  | @next _ _ skipped used after occurrence found hr hfinds hfirst hfound =>
    have hbehind : c :: rest = c :: skipped ++ (used ++ after) := by rw [hr]; rfl
    refine .next hbehind ?_ ?_ ?_
    · simpa using hfinds
    · intro skipped' after' used' occurrence' hr' hlt
      cases skipped' with
      | nil =>
        obtain rfl : c :: rest = after' := hr'
        simpa using hno used' occurrence'
      | cons d skipped' =>
        obtain ⟨rfl, hbehind⟩ := List.cons.inj hr'
        exact hshift (hfirst _ _ _ _ hbehind (Nat.lt_of_succ_lt_succ hlt))
    · simpa using hfound

/-! ## Closing marks -/

/-- The first closing mark is not behind any other. -/
theorem prefix_of_first_close {inside after inside' after' : List Char} (hfirst : ¬ ['%', '>'] <:+: inside)
    (h : inside ++ '%' :: '>' :: after = inside' ++ '%' :: '>' :: after') : ∃ more, inside' = inside ++ more := by
  rcases List.append_eq_append_iff.1 h with ⟨m, hi, -⟩ | ⟨m, hi, hm⟩
  · exact ⟨m, hi⟩
  · match m, hm with
    | [], _ => exact ⟨[], by simpa using hi.symm⟩
    | [c], hm => simp at hm
    | c :: d :: m, hm =>
      simp only [List.cons_append, List.cons.injEq] at hm
      obtain ⟨rfl, rfl, -⟩ := hm
      exact absurd ⟨inside', m, by simp [hi]⟩ hfirst

theorem not_infix_of_beforeClose {text inside : List Char} (h : beforeClose text = some inside) :
    ¬ ['%', '>'] <:+: inside := by
  fun_induction beforeClose text generalizing inside with
  | case1 => simp at h
  | case2 => simp at h
  | case3 =>
    obtain rfl : [] = inside := Option.some.inj h
    decide
  | case4 c d rest hmark ih =>
    obtain ⟨inner, hi, rfl⟩ := Option.map_eq_some_iff.1 h
    obtain ⟨after, ha⟩ := beforeClose_append hi
    rw [List.infix_cons_iff]
    rintro (⟨more, hp⟩ | hinner)
    · -- a mark at the front would be the one that the text begins with
      obtain ⟨rfl, rfl⟩ := List.cons.inj hp
      exact hmark ⟨rfl, (List.cons.inj ha).1⟩
    · exact ih hi hinner

theorem exists_beforeClose (inside after : List Char) :
    ∃ found, beforeClose (inside ++ '%' :: '>' :: after) = some found := by
  induction inside with
  | nil => exact ⟨[], rfl⟩
  | cons c inside ih =>
    obtain ⟨found, hf⟩ := ih
    obtain ⟨d, rest, hd⟩ : ∃ d rest, inside ++ '%' :: '>' :: after = d :: rest := by
      cases inside with
      | nil => exact ⟨_, _, rfl⟩
      | cons d inside => exact ⟨_, _, rfl⟩
    rw [hd] at hf
    rw [List.cons_append, hd, beforeClose, hf]
    split
    · exact ⟨_, rfl⟩
    · exact ⟨_, rfl⟩

/-- Where there is a closing mark, there is a first one. -/
theorem exists_first_close (inside after : List Char) :
    ∃ inside' after', inside ++ '%' :: '>' :: after = inside' ++ '%' :: '>' :: after' ∧ ¬ ['%', '>'] <:+: inside' := by
  obtain ⟨found, hf⟩ := exists_beforeClose inside after
  obtain ⟨after', ha⟩ := beforeClose_append hf
  exact ⟨found, after', ha, not_infix_of_beforeClose hf⟩

theorem beforeClose_of_first_close {inside : List Char} (after : List Char) (hfirst : ¬ ['%', '>'] <:+: inside) :
    beforeClose (inside ++ '%' :: '>' :: after) = some inside := by
  obtain ⟨found, hf⟩ := exists_beforeClose inside after
  obtain ⟨after', ha⟩ := beforeClose_append hf
  obtain ⟨more, hmore⟩ := prefix_of_first_close hfirst ha
  obtain ⟨more', hmore'⟩ := prefix_of_first_close (not_infix_of_beforeClose hf) ha.symm
  -- each of the two begins with the other
  have hlength := congrArg List.length hmore
  have hlength' := congrArg List.length hmore'
  rw [List.length_append] at hlength hlength'
  obtain rfl : more = [] := List.length_eq_zero_iff.1 (by omega)
  rw [hf, hmore, List.append_nil]

/-! ## The two accounts -/

/-- The occurrence that takes `used` of the text `front ++ rest`, with `lead` between its opening mark and its body. -/
def occurrenceAt (front rest used lead body : List Char) : Occurrence :=
  let table := LineTable.ofText (front ++ rest)
  { body
    range := ⟨table.position (utf8Length front), table.position (utf8Length (front ++ used))⟩
    bodyStart := table.position (utf8Length (front ++ '<' :: '%' :: lead)) }

/-- an opening mark, what stands before the first closing one, and that mark; the first trimmed keeps to one line -/
def FirstClose : Finder := fun front rest used occurrence =>
  ∃ inside after, rest = '<' :: '%' :: inside ++ '%' :: '>' :: after ∧ used = '<' :: '%' :: inside ++ ['%', '>'] ∧
    ¬ ['%', '>'] <:+: inside ∧ '\n' ∉ trim inside ∧
    occurrence = occurrenceAt front rest used (inside.takeWhile isBlank) (trim inside)

/-- a way to match `<%\s*(.*?)\s*%>` at the front of `rest` -/
structure Way (rest lead body trail after : List Char) : Prop where
  text : rest = '<' :: '%' :: (lead ++ (body ++ trail)) ++ '%' :: '>' :: after
  lead_blank : ∀ c ∈ lead, isBlank c = true
  body_line : '\n' ∉ body
  trail_blank : ∀ c ∈ trail, isBlank c = true

/-- The first way is tried before the second: more white space first, then less of the body, then more white space. -/
def Preferred (lead body trail lead' body' trail' : List Char) : Prop :=
  lead'.length < lead.length ∨ lead'.length = lead.length ∧
    (body.length < body'.length ∨ body.length = body'.length ∧ trail'.length ≤ trail.length)

/-- the match of `<%\s*(.*?)\s*%>`, which is the way that is tried first -/
def PatternMatch : Finder := fun front rest used occurrence =>
  ∃ lead body trail after, Way rest lead body trail after ∧
    (∀ lead' body' trail' after', Way rest lead' body' trail' after' → Preferred lead body trail lead' body' trail') ∧
    used = '<' :: '%' :: (lead ++ (body ++ trail)) ++ ['%', '>'] ∧ occurrence = occurrenceAt front rest used lead body

/-! ## The accounts agree -/

/-- Where a character that `a` lacks stands in `a ++ b`, it stands in `b`. -/
theorem append_split_of_not_mem {a b before after : List Char} {c : Char} (h : a ++ b = before ++ c :: after)
    (hc : c ∉ a) : ∃ m, before = a ++ m ∧ b = m ++ c :: after := by
  rcases List.append_eq_append_iff.1 h with ⟨m, hb, hm⟩ | ⟨m, ha, hm⟩
  · exact ⟨m, hb, hm⟩
  · cases m with
    | nil => exact ⟨[], by simpa using ha.symm, by simpa using hm.symm⟩
    | cons d m =>
      obtain ⟨rfl, -⟩ := List.cons.inj hm
      exact absurd (by simp [ha]) hc

theorem not_mem_of_blank {text : List Char} {c : Char} (h : ∀ d ∈ text, isBlank d = true) (hc : isBlank c = false) :
    c ∉ text := by
  intro hm
  rw [h c hm] at hc
  exact Bool.noConfusion hc

/-- The end of a trimmed text that a blank text begins with is empty. -/
theorem eq_nil_of_blank_end {text a b blank more : List Char} (ht : trim text = a ++ b)
    (hblank : ∀ c ∈ blank, isBlank c = true) (hb : blank = b ++ more) : b = [] := by
  cases hlast : b.getLast? with
  | none => exact List.getLast?_eq_none_iff.1 hlast
  | some c =>
    have hend : (trim text).getLast? = some c := by rw [ht, List.getLast?_append, hlast]; rfl
    have hc : isBlank c = false := isBlank_getLast?_trimEnd hend
    exact absurd (by rw [hb]; exact List.mem_append_left _ (List.mem_of_getLast? hlast)) (not_mem_of_blank hblank hc)

section Ways

variable {inside after : List Char} (hfirst : ¬ ['%', '>'] <:+: inside)

/-- White space in front of the body cannot reach behind that of the text between the marks. -/
theorem Way.lead_prefix {lead body trail after' : List Char}
    (hway : Way ('<' :: '%' :: inside ++ '%' :: '>' :: after) lead body trail after') :
    ∃ more, inside.takeWhile isBlank = lead ++ more := by
  obtain ⟨ht, hlead, -, -⟩ := hway
  have hinside : inside ++ '%' :: '>' :: after = lead ++ (body ++ trail ++ '%' :: '>' :: after') := by
    simpa using ht
  -- what stands behind the white space is not blank, be it in the text or the mark
  obtain ⟨c, rest, hc, hnext⟩ : ∃ c rest, isBlank c = false ∧
      inside.dropWhile isBlank ++ '%' :: '>' :: after = c :: rest := by
    cases hd : inside.dropWhile isBlank with
    | nil => exact ⟨'%', _, by decide, rfl⟩
    | cons c rest =>
      have := List.head?_dropWhile_not isBlank inside
      rw [hd] at this
      exact ⟨c, _, by simpa using this, rfl⟩
  have hsplit : lead ++ (body ++ trail ++ '%' :: '>' :: after') = inside.takeWhile isBlank ++ c :: rest := by
    rw [← hinside, ← hnext, ← List.append_assoc, List.takeWhile_append_dropWhile]
  obtain ⟨more, hm, -⟩ := append_split_of_not_mem hsplit (not_mem_of_blank hlead hc)
  exact ⟨more, hm⟩

include hfirst

/-- What a way takes between the marks begins with what stands before the first closing one. -/
theorem Way.inside_prefix {lead body trail after' : List Char}
    (hway : Way ('<' :: '%' :: inside ++ '%' :: '>' :: after) lead body trail after') :
    ∃ more, lead ++ (body ++ trail) = inside ++ more :=
  prefix_of_first_close hfirst (by simpa using hway.text)

/-- The text between the marks, cut by trimming, is tried before any other way. -/
theorem Way.preferred {lead body trail after' rear : List Char}
    (hinside : inside = inside.takeWhile isBlank ++ (trim inside ++ rear))
    (hway : Way ('<' :: '%' :: inside ++ '%' :: '>' :: after) lead body trail after') :
    Preferred (inside.takeWhile isBlank) (trim inside) rear lead body trail := by
  obtain ⟨more, hlead⟩ := hway.lead_prefix
  cases more with
  | cons c more =>
    -- less white space in front
    left
    rw [hlead, List.length_append, List.length_cons]
    omega
  | nil =>
    right
    rw [List.append_nil] at hlead
    obtain ⟨more, htext⟩ := hway.inside_prefix hfirst
    have hbody : body ++ trail = trim inside ++ (rear ++ more) := by
      rw [hinside, hlead] at htext
      simpa using htext
    refine ⟨by rw [hlead], ?_⟩
    by_cases hlength : (trim inside).length < body.length
    · exact Or.inl hlength
    · -- a shorter body would leave something that is not blank to the white space behind it
      have hprefix : body <+: trim inside :=
        List.prefix_of_prefix_length_le (List.prefix_append body trail) (hbody ▸ List.prefix_append _ _)
          (Nat.le_of_not_lt hlength)
      obtain ⟨missing, hmissing⟩ := hprefix
      have htrail : trail = missing ++ (rear ++ more) := by
        rw [← hmissing, List.append_assoc] at hbody
        exact List.append_cancel_left hbody
      obtain rfl : missing = [] := eq_nil_of_blank_end hmissing.symm hway.trail_blank htrail
      rw [List.append_nil] at hmissing
      have hrear : trail ++ '%' :: '>' :: after' = rear ++ '%' :: '>' :: after := by
        have := hway.text
        rw [hinside, hlead, ← hmissing] at this
        simpa using this.symm
      obtain ⟨m, hm, -⟩ := append_split_of_not_mem hrear (not_mem_of_blank hway.trail_blank (by decide))
      exact Or.inr ⟨by rw [hmissing], by rw [hm, List.length_append]; omega⟩

/-- Where there is a way to match, the text before the first closing mark keeps to one line. -/
theorem Way.not_mem_trim {lead body trail after' : List Char}
    (hway : Way ('<' :: '%' :: inside ++ '%' :: '>' :: after) lead body trail after') : '\n' ∉ trim inside := by
  intro hmem
  obtain ⟨upper, lower, htrim⟩ := List.append_of_mem hmem
  obtain ⟨rear, hinside, -⟩ := trim_append inside
  obtain ⟨gap, hlead⟩ := hway.lead_prefix
  obtain ⟨more, htext⟩ := hway.inside_prefix hfirst
  have hbody : body ++ trail = gap ++ upper ++ '\n' :: (lower ++ (rear ++ more)) := by
    rw [hinside, hlead, htrim] at htext
    simpa using htext
  -- the body cannot hold the line feed, so all that follows would have to be blank
  obtain ⟨m, -, htrail⟩ := append_split_of_not_mem hbody hway.body_line
  have hblank : ∀ c ∈ '\n' :: lower ++ (rear ++ more), isBlank c = true := by
    intro c hc
    exact hway.trail_blank c (by rw [htrail]; exact List.mem_append_right _ hc)
  exact List.cons_ne_nil _ _ (eq_nil_of_blank_end htrim hblank rfl)

end Ways

/-- Of two ways that are each tried before the other, both are the same. -/
theorem Way.eq_of_preferred {rest lead body trail after lead' body' trail' after' : List Char}
    (hway : Way rest lead body trail after) (hway' : Way rest lead' body' trail' after')
    (hpref : Preferred lead body trail lead' body' trail') (hpref' : Preferred lead' body' trail' lead body trail) :
    lead = lead' ∧ body = body' ∧ trail = trail' := by
  have hlengths : lead.length = lead'.length ∧ body.length = body'.length ∧ trail.length = trail'.length := by
    unfold Preferred at hpref hpref'
    omega
  have htext : lead ++ (body ++ (trail ++ '%' :: '>' :: after)) = lead' ++ (body' ++ (trail' ++ '%' :: '>' :: after')) := by
    simpa using hway.text.symm.trans hway'.text
  obtain ⟨hlead, htext⟩ := List.append_inj htext hlengths.1
  obtain ⟨hbody, htext⟩ := List.append_inj htext hlengths.2.1
  exact ⟨hlead, hbody, (List.append_inj htext hlengths.2.2).1⟩

/-- **The pattern finds the first closing mark.** What matches `<%\s*(.*?)\s*%>` is what stands between an opening mark and
the first closing one, as long as trimming leaves no line feed in it; the captured body is what trimming leaves. -/
theorem patternMatch_iff_firstClose (front rest used : List Char) (occurrence : Occurrence) :
    PatternMatch front rest used occurrence ↔ FirstClose front rest used occurrence := by
  have hcanonical : ∀ {inside after rear : List Char}, '\n' ∉ trim inside →
      inside = inside.takeWhile isBlank ++ (trim inside ++ rear) → (∀ c ∈ rear, isBlank c = true) →
      Way ('<' :: '%' :: inside ++ '%' :: '>' :: after) (inside.takeWhile isBlank) (trim inside) rear after :=
    fun hline hinside hrear =>
      ⟨by rw [← hinside], fun c hc => List.mem_takeWhile_imp hc, hline, hrear⟩
  constructor
  · rintro ⟨lead, body, trail, after', hway, hpref, rfl, rfl⟩
    obtain ⟨inside, after, htext, hfirst⟩ := exists_first_close (lead ++ (body ++ trail)) after'
    obtain rfl : rest = '<' :: '%' :: inside ++ '%' :: '>' :: after := by
      rw [hway.text, List.cons_append, List.cons_append, htext]
      rfl
    obtain ⟨rear, hinside, hrear⟩ := trim_append inside
    have hline := hway.not_mem_trim hfirst
    obtain ⟨rfl, rfl, rfl⟩ := hway.eq_of_preferred (hcanonical hline hinside hrear)
      (hpref _ _ _ _ (hcanonical hline hinside hrear)) (hway.preferred hfirst hinside)
    exact ⟨inside, after, rfl, by rw [← hinside], hfirst, hline, by rw [← hinside]⟩
  · rintro ⟨inside, after, rfl, rfl, hfirst, hline, rfl⟩
    obtain ⟨rear, hinside, hrear⟩ := trim_append inside
    refine ⟨_, _, rear, after, hcanonical hline hinside hrear, ?_, ?_, rfl⟩
    · intro lead' body' trail' after' hway
      exact hway.preferred hfirst hinside
    · rw [← hinside]

/-! ## The scan is such a search -/

theorem siteAt_of_first_close {inside : List Char} (start : Nat) (after : List Char) (hfirst : ¬ ['%', '>'] <:+: inside)
    (hline : '\n' ∉ trim inside) :
    siteAt start (inside ++ '%' :: '>' :: after) = some (inside,
      ⟨start, start + utf8Length inside + 4, start + 2 + utf8Length (inside.takeWhile isBlank), trim inside⟩) := by
  rw [siteAt, beforeClose_of_first_close after hfirst]
  simp [hline]

/-- What a site measures in bytes is what the occurrence says of the text. -/
theorem occurrence_eq_occurrenceAt (front inside after : List Char) :
    Site.occurrence (LineTable.ofText (front ++ ('<' :: '%' :: inside ++ '%' :: '>' :: after)))
        ⟨utf8Length front, utf8Length front + utf8Length inside + 4,
          utf8Length front + 2 + utf8Length (inside.takeWhile isBlank), trim inside⟩ =
      occurrenceAt front ('<' :: '%' :: inside ++ '%' :: '>' :: after) ('<' :: '%' :: inside ++ ['%', '>'])
        (inside.takeWhile isBlank) (trim inside) := by
  have hstop : utf8Length front + utf8Length inside + 4 = utf8Length (front ++ ('<' :: '%' :: inside ++ ['%', '>'])) := by
    rw [utf8Length_append, utf8Length_append]
    show _ = _ + (1 + (1 + utf8Length inside) + 2)
    omega
  have hbody : utf8Length front + 2 + utf8Length (inside.takeWhile isBlank) =
      utf8Length (front ++ '<' :: '%' :: inside.takeWhile isBlank) := by
    rw [utf8Length_append]
    show _ = _ + (1 + (1 + _))
    omega
  have htext : front ++ ('<' :: '%' :: inside ++ '%' :: '>' :: after) =
      front ++ ('<' :: '%' :: inside ++ ['%', '>']) ++ after := by simp
  rw [Site.occurrence_eq, occurrenceAt, hstop, hbody, LineTable.range, Occurrence.mk.injEq]
  refine ⟨rfl, ?_, rfl⟩
  rw [LineTable.position_append, htext, LineTable.position_append, Position.advanceAll_append]
  exact Range.between_advanceAll _ _

/-- What is found at a place is the site there. -/
theorem firstClose_iff_siteAt {front rest used : List Char} {occurrence : Occurrence} :
    FirstClose front rest used occurrence ↔ ∃ tail inside site, rest = '<' :: '%' :: tail ∧
      siteAt (utf8Length front) tail = some (inside, site) ∧ used = '<' :: '%' :: inside ++ ['%', '>'] ∧
      occurrence = site.occurrence (LineTable.ofText (front ++ rest)) := by
  constructor
  · rintro ⟨inside, after, rfl, rfl, hfirst, hline, rfl⟩
    exact ⟨_, inside, _, rfl, siteAt_of_first_close _ after hfirst hline, rfl, (occurrence_eq_occurrenceAt _ _ _).symm⟩
  · rintro ⟨tail, inside, site, rfl, hs, rfl, rfl⟩
    obtain ⟨hclose, hline, rfl⟩ := siteAt_eq_some hs
    obtain ⟨after, rfl⟩ := beforeClose_append hclose
    exact ⟨inside, after, rfl, rfl, not_infix_of_beforeClose hclose, hline, occurrence_eq_occurrenceAt _ _ _⟩

theorem firstClose_functional : Finder.Functional FirstClose := by
  intro front rest used occurrence used' occurrence' h h'
  obtain ⟨tail, inside, site, rfl, hs, rfl, rfl⟩ := firstClose_iff_siteAt.1 h
  obtain ⟨tail', inside', site', ht, hs', rfl, rfl⟩ := firstClose_iff_siteAt.1 h'
  obtain rfl : tail = tail' := by simpa using ht
  obtain ⟨rfl, rfl⟩ := Prod.mk.inj (Option.some.inj (hs.symm.trans hs'))
  exact ⟨rfl, rfl⟩

theorem sitesFrom_skip (offset : Nat) (skipped rest : List Char) :
    sitesFrom skipped.length offset (skipped ++ rest) = sitesFrom 0 (offset + utf8Length skipped) rest := by
  induction skipped generalizing offset with
  | nil => rfl
  | cons c skipped ih =>
    rw [List.length_cons, List.cons_append, sitesFrom, ih, utf8Length, Nat.add_assoc]

theorem sitesFrom_take {offset : Nat} {inside after : List Char} {site : Site}
    (h : siteAt offset (inside ++ '%' :: '>' :: after) = some (inside, site)) :
    sitesFrom 0 offset ('<' :: '%' :: inside ++ '%' :: '>' :: after) =
      site :: sitesFrom 0 (offset + utf8Length ('<' :: '%' :: inside ++ ['%', '>'])) after := by
  have hskip := sitesFrom_skip (offset + 1) ('%' :: inside ++ ['%', '>']) after
  have hlength : ('%' :: inside ++ ['%', '>']).length = inside.length + 3 := by simp
  have htext : '%' :: inside ++ ['%', '>'] ++ after = '%' :: (inside ++ '%' :: '>' :: after) := by simp
  rw [hlength, htext] at hskip
  rw [List.cons_append, List.cons_append, sitesFrom, h]
  simp only [hskip, Nat.add_assoc]
  rfl

theorem sitesFrom_pass {offset : Nat} {c : Char} {rest : List Char}
    (h : ∀ tail, c = '<' → rest = '%' :: tail → siteAt offset tail = none) :
    sitesFrom 0 offset (c :: rest) = sitesFrom 0 (offset + c.utf8Size) rest := by
  by_cases hmark : ∃ tail, c = '<' ∧ rest = '%' :: tail
  · obtain ⟨tail, rfl, rfl⟩ := hmark
    rw [sitesFrom, h tail rfl rfl]
    rfl
  · rw [sitesFrom]
    rintro tail rfl rfl
    exact hmark ⟨tail, rfl, rfl⟩

/-- The scan from a place on is the search from there, whatever stands before the place. -/
theorem search_sitesFrom (front rest : List Char) :
    Search FirstClose front rest
      ((sitesFrom 0 (utf8Length front) rest).map (Site.occurrence (LineTable.ofText (front ++ rest)))) := by
  -- a site may be long, so the induction is on the length of what is left
  induction hlen : rest.length using Nat.strong_induction_on generalizing front rest with
  | _ n ih =>
    cases rest with
    | nil =>
      refine .done fun skipped after used occurrence hr hf => ?_
      obtain ⟨-, rfl⟩ := List.append_eq_nil_iff.1 hr.symm
      obtain ⟨inside, after, hrest, -⟩ := hf
      simp at hrest
    | cons c rest =>
      by_cases hfound : ∃ used occurrence, FirstClose front (c :: rest) used occurrence
      · obtain ⟨used, occurrence, hf⟩ := hfound
        obtain ⟨tail, inside, site, ht, hs, rfl, rfl⟩ := firstClose_iff_siteAt.1 hf
        obtain ⟨after, rfl⟩ := beforeClose_append (siteAt_eq_some hs).1
        have hsplit : c :: rest = '<' :: '%' :: inside ++ ['%', '>'] ++ after := by simpa using ht
        have hshort : after.length < n := by rw [← hlen, hsplit]; simp; omega
        have hrest := ih _ hshort (front ++ ('<' :: '%' :: inside ++ ['%', '>'])) after rfl
        rw [utf8Length_append, List.append_assoc, ← hsplit] at hrest
        have hscan : sitesFrom 0 (utf8Length front) (c :: rest) =
            site :: sitesFrom 0 (utf8Length front + utf8Length ('<' :: '%' :: inside ++ ['%', '>'])) after := by
          rw [ht]
          exact sitesFrom_take hs
        rw [hscan]
        rw [hsplit] at hf hrest ⊢
        exact Search.take hf hrest
      · have hno : ∀ used occurrence, ¬ FirstClose front (c :: rest) used occurrence :=
          fun used occurrence hf => hfound ⟨used, occurrence, hf⟩
        have hrest := ih _ (by rw [← hlen]; simp) (front ++ [c]) rest rfl
        have hoffset : utf8Length (front ++ [c]) = utf8Length front + c.utf8Size := utf8Length_append front [c]
        rw [hoffset, List.append_assoc, ← sitesFrom_pass] at hrest
        · exact Search.pass hno hrest
        · rintro tail rfl rfl
          cases hs : siteAt (utf8Length front) tail with
          | none => rfl
          | some found => exact absurd (firstClose_iff_siteAt.2 ⟨tail, found.1, found.2, rfl, hs, rfl, rfl⟩) (hno _ _)

theorem search_firstClose_iff {text : List Char} {found : List Occurrence} :
    Search FirstClose [] text found ↔ found = occurrences (LineTable.ofText text) := by
  have h := search_sitesFrom [] text
  constructor
  · exact fun h' => Search.unique firstClose_functional h' h
  · rintro rfl
    exact h

/-! ## Ranges -/

theorem FirstClose.range {front rest used : List Char} {occurrence : Occurrence}
    (h : FirstClose front rest used occurrence) :
    occurrence.range = ⟨Position.zero.advanceAll front, Position.zero.advanceAll (front ++ used)⟩ ∧ used ≠ [] := by
  obtain ⟨inside, after, rfl, rfl, -, -, rfl⟩ := h
  have htext : front ++ ('<' :: '%' :: inside ++ '%' :: '>' :: after) =
      front ++ ('<' :: '%' :: inside ++ ['%', '>']) ++ after := by simp
  refine ⟨?_, by simp⟩
  simp only [occurrenceAt]
  rw [LineTable.position_append, htext, LineTable.position_append]

/-- Each find ends before the next one begins, and none begins before the search does. -/
theorem Search.ranges {front rest : List Char} {found : List Occurrence} (h : Search FirstClose front rest found) :
    (∀ occurrence ∈ found, Position.zero.advanceAll front ≤ occurrence.range.start ∧
        occurrence.range.start < occurrence.range.stop) ∧
      found.Pairwise fun a b => a.range.stop ≤ b.range.start := by
  induction h with
  | done => exact ⟨by simp, .nil⟩
  | @next front rest skipped used after occurrence found _ hfinds _ _ ih =>
    obtain ⟨hrange, hused⟩ := hfinds.range
    constructor
    · intro other ho
      rcases List.mem_cons.1 ho with rfl | ho
      · rw [hrange, Position.advanceAll_append, Position.advanceAll_append _ (front ++ skipped),
          Position.advanceAll_append]
        exact ⟨Position.le_advanceAll _ _, Position.lt_advanceAll _ hused⟩
      · refine ⟨Position.le_trans ?_ (ih.1 other ho).1, (ih.1 other ho).2⟩
        rw [List.append_assoc, Position.advanceAll_append]
        exact Position.le_advanceAll _ _
    · refine .cons (fun other ho => ?_) ih.2
      rw [hrange]
      exact (ih.1 other ho).1

/-! ## Occurrences -/

theorem body_of_mem_occurrences {text : List Char} {occurrence : Occurrence}
    (h : occurrence ∈ occurrences (LineTable.ofText text)) :
    trim occurrence.body = occurrence.body ∧ ¬ ['%', '>'] <:+: occurrence.body ∧ '\n' ∉ occurrence.body := by
  obtain ⟨site, hs, rfl⟩ := List.mem_map.1 h
  obtain ⟨before, inside, after, -, hclose, hline, rfl⟩ := mem_sites hs
  obtain ⟨rear, hinside, -⟩ := trim_append inside
  have hbody : trim inside <:+: inside := ⟨inside.takeWhile isBlank, rear, by rw [List.append_assoc, ← hinside]⟩
  exact ⟨trim_trim inside, fun hmark => not_infix_of_beforeClose hclose (hmark.trans hbody), hline⟩

/-- **What is extracted.** The occurrences of a document are what a search finds that takes, again and again, the first
opening mark that counts, and they are what a search for the pattern `<%\s*(.*?)\s*%>` finds. Their bodies are trimmed and
hold neither a closing mark nor a line feed; their ranges are not empty, do not overlap and are in document order. -/
theorem occurrences_iff_search (text : List Char) :
    (∀ found, Search FirstClose [] text found ↔ found = occurrences (LineTable.ofText text)) ∧
    (∀ found, Search PatternMatch [] text found ↔ found = occurrences (LineTable.ofText text)) ∧
    (∀ occurrence ∈ occurrences (LineTable.ofText text),
      trim occurrence.body = occurrence.body ∧ ¬ ['%', '>'] <:+: occurrence.body ∧ '\n' ∉ occurrence.body) ∧
    (∀ occurrence ∈ occurrences (LineTable.ofText text), occurrence.range.start < occurrence.range.stop) ∧
    (occurrences (LineTable.ofText text)).Pairwise fun a b => a.range.stop ≤ b.range.start := by
  have hranges := (search_firstClose_iff.2 (Eq.refl (occurrences (LineTable.ofText text)))).ranges
  refine ⟨fun found => search_firstClose_iff, fun found => ?_, fun occurrence h => body_of_mem_occurrences h,
    fun occurrence h => (hranges.1 occurrence h).2, hranges.2⟩
  rw [← search_firstClose_iff]
  exact ⟨Search.congr patternMatch_iff_firstClose,
    Search.congr fun front rest used occurrence => (patternMatch_iff_firstClose front rest used occurrence).symm⟩

end WorkflowLint.Expression
