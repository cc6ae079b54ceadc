/-
Byte offsets between characters, and the positions that the table of lines gives for them.

An offset lies between two characters, or at an end of the text, exactly if it is the length in bytes of an initial part
(`onBoundary_iff`). The table gives for it the end of the walk over that part, so positions are ordered as their offsets are:
`position_lt_of_lt`. An offset past the end counts as the end (`position_of_le`).

`LineTable.position` answers for any offset; `LineTable.position?` refuses one inside a character. Lookups and the search for
expressions leave open what measures the offsets that they come to, and here they are given what refuses (`Lookup.checked`,
`checkedOccurrences`). `offsets_and_positions` says that then too they always have an answer, and the same one: no key, in no
text and under no name, and no expression is ever measured at an offset inside a character.
-/
import WorkflowLint.Proofs.BlockStyle
import WorkflowLint.Proofs.KeyPlaces

namespace WorkflowLint

open WorkflowLint.Text WorkflowLint.Expression

/-! ## Offsets -/

namespace Text

theorem takeBytes_prefix (n : Nat) (text : List Char) : ∃ rest, text = takeBytes n text ++ rest := by
  fun_induction takeBytes n text with
  | case1 => exact ⟨[], rfl⟩
  | case2 n c text hle ih =>
    obtain ⟨rest, hrest⟩ := ih
    exact ⟨rest, by rw [List.cons_append, ← hrest]⟩
  | case3 n c text => exact ⟨c :: text, rfl⟩

theorem takeBytes_of_le {n : Nat} {text : List Char} (h : utf8Length text ≤ n) : takeBytes n text = text := by
  induction text generalizing n with
  | nil => rfl
  | cons c text ih =>
    rw [utf8Length] at h
    rw [takeBytes, if_pos (by omega), ih (by omega)]

/-- Offsets between characters are the lengths of the initial parts. -/
theorem onBoundary_iff {offset : Nat} {text : List Char} :
    onBoundary offset text = true ↔ ∃ before after, text = before ++ after ∧ utf8Length before = offset := by
  constructor
  · intro h
    obtain ⟨rest, hrest⟩ := takeBytes_prefix offset text
    exact ⟨_, rest, hrest, by simpa [onBoundary] using h⟩
  · intro h
    obtain ⟨before, after, rfl, rfl⟩ := h
    exact onBoundary_append before after

end Text

/-! ## Positions -/

namespace LineTable

theorem positionIn_of_le {offset : Nat} (start n : Nat) (text : List Char) (h : start + utf8Length text ≤ offset) :
    positionIn offset n (linesFrom start text) = positionIn (start + utf8Length text) n (linesFrom start text) := by
  induction text using line_induction generalizing start n with
  | last line hline =>
    have hwhole : takeBytes (offset - start) line = line := takeBytes_of_le (by omega)
    have hall : takeBytes (start + utf8Length line - start) line = line := takeBytes_of_le (by omega)
    rw [linesFrom_of_not_mem start hline]
    simp only [positionIn, hwhole, hall]
  | next line rest hline ih =>
    -- both offsets lie behind the line feed
    have hlength : utf8Length (line ++ '\n' :: rest) = utf8Length line + 1 + utf8Length rest := by
      rw [utf8Length_append, utf8Length, Nat.add_assoc]
      rfl
    have hrest := ih (start + utf8Length line + 1) (n + 1) (by omega)
    obtain ⟨chars, lines, hlines, -⟩ := linesFrom_eq_cons (start + utf8Length line + 1) rest
    rw [linesFrom_append start rest hline]
    rw [hlines] at hrest ⊢
    have hbehind : start + utf8Length line + 1 ≤ offset := by omega
    have hbehind' : start + utf8Length line + 1 ≤ start + utf8Length (line ++ '\n' :: rest) := by omega
    have hstop : start + utf8Length line + 1 + utf8Length rest = start + utf8Length (line ++ '\n' :: rest) := by omega
    simp only [positionIn, hbehind, hbehind', if_true]
    rw [hrest, hstop]

/-- Offsets past the end give the position of the end. -/
theorem position_of_le {offset : Nat} {text : List Char} (h : utf8Length text ≤ offset) :
    (LineTable.ofText text).position offset = Position.zero.advanceAll text := by
  have hclamp := positionIn_of_le 0 0 text (Nat.le_trans (Nat.le_of_eq (Nat.zero_add _)) h)
  have hend := position_append text []
  rw [List.append_nil] at hend
  rw [Nat.zero_add] at hclamp
  exact hclamp.trans hend

/-- An offset between two characters is not refused. -/
theorem position?_of_onBoundary {offset : Nat} {text : List Char} (h : onBoundary offset text = true) :
    (LineTable.ofText text).position? offset = some ((LineTable.ofText text).position offset) := by
  have hclamp : (LineTable.ofText text).clamp offset = offset := by
    obtain ⟨before, after, rfl, rfl⟩ := onBoundary_iff.1 h
    refine Nat.min_eq_left ?_
    show utf8Length before ≤ utf8Length (before ++ after)
    rw [utf8Length_append]
    omega
  rw [position?, hclamp]
  exact if_pos h

theorem range?_of_onBoundary {text : List Char} {a b : Nat} (ha : onBoundary a text = true) (hb : onBoundary b text = true) :
    (LineTable.ofText text).range? a b = some ((LineTable.ofText text).range a b) := by
  rw [range?, position?_of_onBoundary ha, position?_of_onBoundary hb]
  rfl

theorem position?_of_le {offset : Nat} {text : List Char} (h : utf8Length text ≤ offset) :
    (LineTable.ofText text).position? offset = some ((LineTable.ofText text).position offset) := by
  have hclamp : (LineTable.ofText text).clamp offset = utf8Length text := Nat.min_eq_right h
  have hend := onBoundary_append text []
  rw [List.append_nil] at hend
  rw [position?, hclamp]
  exact if_pos hend

/-- **Positions are ordered as their offsets are.** -/
theorem position_lt_of_lt {text : List Char} {a b : Nat} (ha : onBoundary a text = true) (hb : onBoundary b text = true)
    (h : a < b) : (LineTable.ofText text).position a < (LineTable.ofText text).position b := by
  obtain ⟨front, after, rfl, rfl⟩ := onBoundary_iff.1 ha
  obtain ⟨front', after', htext, rfl⟩ := onBoundary_iff.1 hb
  have hlonger : ∃ between, front' = front ++ between ∧ between ≠ [] := by
    rcases List.append_eq_append_iff.1 htext with ⟨between, rfl, -⟩ | ⟨between, rfl, -⟩
    · refine ⟨between, rfl, ?_⟩
      intro hnil
      rw [hnil, List.append_nil] at h
      exact Nat.lt_irrefl _ h
    · rw [utf8Length_append] at h
      omega
  obtain ⟨between, rfl, hne⟩ := hlonger
  rw [position_append, htext, position_append, Position.advanceAll_append]
  exact Position.lt_advanceAll _ hne

theorem range_of_le {text : List Char} {a b : Nat} (ha : onBoundary a text = true) (hb : onBoundary b text = true)
    (h : a ≤ b) :
    (LineTable.ofText text).range a b = ⟨(LineTable.ofText text).position a, (LineTable.ofText text).position b⟩ := by
  refine if_neg ?_
  rcases Nat.lt_or_eq_of_le h with hlt | rfl
  · intro hback
    exact Position.lt_irrefl _ (Position.lt_trans hback (position_lt_of_lt ha hb hlt))
  · exact Position.lt_irrefl _

theorem position_injective {text : List Char} {a b : Nat} (ha : onBoundary a text = true) (hb : onBoundary b text = true)
    (h : (LineTable.ofText text).position a = (LineTable.ofText text).position b) : a = b := by
  rcases Nat.lt_trichotomy a b with hlt | heq | hgt
  · exact absurd (h ▸ position_lt_of_lt ha hb hlt) (Position.lt_irrefl _)
  · exact heq
  · exact absurd (h ▸ position_lt_of_lt hb ha hgt) (Position.lt_irrefl _)

end LineTable

/-! ## Checked lookups -/

namespace Layout

/-- the layout's answer, unless an offset that the lookup comes to lies inside a character -/
def Lookup.checked (layout : Layout) : Lookup → Option Range :=
  via layout.table.range? (some layout.top) layout

/-- The offsets of a key lie between characters. -/
theorem onBoundary_key {text : List Char} {row : Row} {key : KeySpan} (hrow : row ∈ (Layout.ofText text).rows)
    (hkey : row.key = some key) : onBoundary key.start text = true ∧ onBoundary key.stop text = true := by
  obtain ⟨front, back, htext, hstart, hstop, -, -⟩ := key_stands hrow hkey
  refine ⟨onBoundary_iff.2 ⟨front, key.text ++ back, htext, hstart⟩, onBoundary_iff.2 ⟨front ++ key.text, back, ?_, ?_⟩⟩
  · rw [htext, List.append_assoc]
  · rw [utf8Length_append, hstart, hstop]

/-- No header is refused that a path leads to. -/
theorem checked_descend (text : List Char) (fallback : Range) (path : List String) :
    orVia (Layout.ofText text).table.range? (some (Layout.ofText text).top) (some fallback)
        (descend path (Layout.ofText text).rows) =
      some (orVia (Layout.ofText text).table.range (Layout.ofText text).top fallback
        (descend path (Layout.ofText text).rows)) := by
  cases hblock : descend path (Layout.ofText text).rows with
  | none => rfl
  | some block =>
    rw [orVia, orVia, headerVia, headerVia]
    cases hkey : block.header.key with
    | none => rfl
    | some key =>
      obtain ⟨hstart, hstop⟩ := onBoundary_key (header_mem_of_descend hblock) hkey
      exact LineTable.range?_of_onBoundary hstart hstop

theorem Lookup.checked_of_fallback {text : List Char} {lookup : Lookup}
    (h : lookup.fallbackVia (Layout.ofText text).table.range? (some (Layout.ofText text).top) (Layout.ofText text) =
      some (lookup.fallbackVia (Layout.ofText text).table.range (Layout.ofText text).top (Layout.ofText text))) :
    lookup.checked (Layout.ofText text) = some (lookup.range (Layout.ofText text)) := by
  rw [checked, range, via_eq, via_eq, h]
  exact checked_descend text _ lookup.path

/-- **Lookups never measure inside a character.** -/
theorem Lookup.checked_eq_some (text : List Char) (lookup : Lookup) :
    lookup.checked (Layout.ofText text) = some (lookup.range (Layout.ofText text)) := by
  cases lookup with
  | rootKey | workflow | task => exact checked_of_fallback rfl
  | workflowKey w key =>
    exact checked_of_fallback (@checked_of_fallback text (.workflow w) rfl)
  | taskKey w t key => exact checked_of_fallback (@checked_of_fallback text (.task w t) rfl)

end Layout

/-! ## Checked expressions -/

namespace Expression

/-- the occurrence at a site, unless an offset of the site lies inside a character -/
def Site.checked (table : LineTable) : Site → Option Occurrence :=
  Site.occurrenceVia table.range? table.position?

/-- every embedded expression of a document, unless one is measured inside a character -/
def checkedOccurrences (table : LineTable) : Option (List Occurrence) :=
  (sites table.source).mapM (Site.checked table)

/-- The offsets of a site lie between characters, and the one of its body between the others. -/
theorem onBoundary_site {text : List Char} {site : Site} (h : site ∈ sites text) :
    onBoundary site.start text = true ∧ onBoundary site.stop text = true ∧ onBoundary site.bodyStart text = true := by
  obtain ⟨front, back, hbody, hfront⟩ := Site.body_stands h
  obtain ⟨before, inside, after, htext, -, -, hsite⟩ := mem_sites h
  refine ⟨onBoundary_iff.2 ⟨before, _, htext, by rw [hsite]⟩, onBoundary_iff.2 ?_, onBoundary_iff.2 ?_⟩
  · refine ⟨before ++ '<' :: '%' :: (inside ++ ['%', '>']), after, by rw [htext]; simp, ?_⟩
    rw [hsite, utf8Length_append]
    show utf8Length before + (1 + (1 + utf8Length (inside ++ ['%', '>']))) = utf8Length before + utf8Length inside + 4
    rw [utf8Length_append]
    show utf8Length before + (1 + (1 + (utf8Length inside + 2))) = _
    omega
  · exact ⟨front, site.body ++ back, by rw [hbody, List.append_assoc], hfront⟩

theorem Site.checked_eq_some {text : List Char} {site : Site} (h : site ∈ sites text) :
    site.checked (LineTable.ofText text) = some (site.occurrence (LineTable.ofText text)) := by
  obtain ⟨hstart, hstop, hbody⟩ := onBoundary_site h
  rw [Site.checked, occurrenceVia, LineTable.range?_of_onBoundary hstart hstop, LineTable.position?_of_onBoundary hbody]
  rfl

theorem mapM_eq_some_map {α β : Type} {f : α → Option β} {g : α → β} {items : List α}
    (h : ∀ item ∈ items, f item = some (g item)) : items.mapM f = some (items.map g) := by
  induction items with
  | nil => rfl
  | cons item items ih =>
    obtain ⟨hitem, hitems⟩ := List.forall_mem_cons.1 h
    rw [List.mapM_cons, hitem, ih hitems]
    rfl

/-- **Expressions are never measured inside a character.** -/
theorem checkedOccurrences_eq_some (text : List Char) :
    checkedOccurrences (LineTable.ofText text) = some (occurrences (LineTable.ofText text)) :=
  mapM_eq_some_map fun _ hsite => Site.checked_eq_some hsite

end Expression

/-- **Offsets and positions.** An offset between two characters is that of an initial part of the text, and its position is
where the walk over that part ends; an offset past the end has the position of the end. Positions are ordered as their
offsets are, so no two offsets share one and a range keeps the order of its ends. No lookup, whatever the names, and no
expression is measured at an offset that would be refused. -/
theorem offsets_and_positions (text : List Char) :
    let table := LineTable.ofText text
    (∀ offset, onBoundary offset text = true → ∃ before after, text = before ++ after ∧ utf8Length before = offset ∧
      table.position offset = Position.zero.advanceAll before ∧ table.position? offset = some (table.position offset)) ∧
    (∀ offset, utf8Length text ≤ offset →
      table.position offset = Position.zero.advanceAll text ∧ table.position? offset = some (table.position offset)) ∧
    (∀ a b, onBoundary a text = true → onBoundary b text = true → a < b → table.position a < table.position b) ∧
    (∀ a b, onBoundary a text = true → onBoundary b text = true → table.position a = table.position b → a = b) ∧
    (∀ a b, onBoundary a text = true → onBoundary b text = true → a ≤ b →
      table.range a b = ⟨table.position a, table.position b⟩) ∧
    (∀ lookup : Layout.Lookup, lookup.checked (Layout.ofText text) = some (lookup.range (Layout.ofText text))) ∧
    checkedOccurrences table = some (occurrences table) := by
  intro table
  refine ⟨?_, ?_, fun a b => LineTable.position_lt_of_lt, fun a b => LineTable.position_injective,
    fun a b => LineTable.range_of_le, Layout.Lookup.checked_eq_some text, checkedOccurrences_eq_some text⟩
  · intro offset hoffset
    obtain ⟨before, after, htext, hlength⟩ := onBoundary_iff.1 hoffset
    refine ⟨before, after, htext, hlength, ?_, LineTable.position?_of_onBoundary hoffset⟩
    have hwalk := LineTable.position_append before after
    rwa [← htext, hlength] at hwalk
  · intro offset hpast
    exact ⟨LineTable.position_of_le hpast, LineTable.position?_of_le hpast⟩

end WorkflowLint
