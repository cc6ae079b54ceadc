/-
What the row of a line is, for every line of every text.

`Spelling` says how a key is written at the front of a line, plain or in quotes, and what has to follow it. Where there is a
spelling, the scan finds a key of the same kind that is no longer (`keyAt_of_spelling`), and what it finds is spelled
(`spelling_of_keyAt`); so it finds the shortest one (`keyAt_eq_some_iff`). A plain key may hold colons: what ends it is the
first one behind its first character that a space, a tab or the end of the line follows. A key in quotes has only one end.

`Row.Describes` puts this together with indentation and trivia, and with the pattern of a key. `ofLine_describes` says it of the
row of any line, and `rows_describe_lines` of the rows of a document, where the offsets of a key are those of its text.
-/
import WorkflowLint.Proofs.KeyPattern
import WorkflowLint.Proofs.KeyRanges

namespace WorkflowLint

open WorkflowLint.Text

namespace Layout

/-! ## How a key is spelled -/

/-- what follows a key: spaces or tabs, a colon, and then a space, a tab or the end of the line -/
def EndsKey (after : List Char) : Prop :=
  ∃ padding more, after = padding ++ ':' :: more ∧ (∀ c ∈ padding, c = ' ' ∨ c = '\t') ∧
    ∀ c, more.head? = some c → c = ' ' ∨ c = '\t'

/-- what may be written as a key in each way -/
def Quoting.Admits : Quoting → List Char → Prop
  | plain, run => '#' ∉ run ∧ ∃ c more, run = c :: more ∧ isBlank c = false ∧ c ∉ ['#', '\'', '"', '[', ']', '{', '}', ',']
  | single, run => '\'' ∉ run
  | double, run => '"' ∉ run

/-- the text begins with the key `run`, and `after` follows it -/
structure Spelling (quoting : Quoting) (run after text : List Char) : Prop where
  text_eq : text = quoting.mark ++ run ++ quoting.mark ++ after
  admits : quoting.Admits run
  ends : EndsKey after

theorem atColon_iff {after : List Char} : atColon after = true ↔ EndsKey after := by
  constructor
  · intro h
    have hsplit : after = after.takeWhile isIndent ++ after.dropWhile isIndent := List.takeWhile_append_dropWhile.symm
    have hpadding : ∀ c ∈ after.takeWhile isIndent, c = ' ' ∨ c = '\t' := by
      intro c hc
      exact isIndent_iff.1 (List.mem_takeWhile_imp hc)
    unfold atColon at h
    split at h
    case h_1 hdrop =>
      rw [hdrop] at hsplit
      exact ⟨_, [], hsplit, hpadding, nofun⟩
    case h_2 c more hdrop =>
      rw [hdrop] at hsplit
      refine ⟨_, c :: more, hsplit, hpadding, ?_⟩
      intro d hd
      obtain rfl := Option.some.inj hd
      exact isIndent_iff.1 h
    case h_3 => simp at h
  · rintro ⟨padding, more, rfl, hpadding, hmore⟩
    have hdrop : (padding ++ ':' :: more).dropWhile isIndent = ':' :: more := by
      rw [List.dropWhile_append_of_pos fun c hc => isIndent_iff.2 (hpadding c hc)]
      rfl
    rw [atColon, hdrop]
    cases more with
    | nil => rfl
    | cons c more => exact isIndent_iff.2 (hmore c rfl)

theorem plainRun_inv {text run : List Char} (h : plainRun text = some run) :
    ∃ after, text = run ++ after ∧ '#' ∉ run ∧ EndsKey after := by
  fun_induction plainRun text generalizing run with
  | case1 => simp at h
  | case2 c rest hcolon =>
    obtain rfl := Option.some.inj h
    exact ⟨c :: rest, rfl, List.not_mem_nil, atColon_iff.1 hcolon⟩
  | case3 => simp at h
  | case4 c rest hcolon hhash ih =>
    obtain ⟨inner, hinner, rfl⟩ := Option.map_eq_some_iff.1 h
    obtain ⟨after, rfl, hno, hends⟩ := ih hinner
    refine ⟨after, rfl, ?_, hends⟩
    rw [List.mem_cons, not_or]
    exact ⟨Ne.symm hhash, hno⟩

/-- Where a run is followed as a key has to be, the scan stops there at the latest. -/
theorem plainRun_le {run after : List Char} (hno : '#' ∉ run) (hends : EndsKey after) :
    ∃ found, plainRun (run ++ after) = some found ∧ found.length ≤ run.length := by
  induction run with
  | nil =>
    have hcolon : atColon after = true := atColon_iff.2 hends
    cases after with
    | nil => simp [atColon] at hcolon
    | cons c after => exact ⟨[], by rw [List.nil_append, plainRun, if_pos hcolon], Nat.le_refl _⟩
  | cons c run ih =>
    rw [List.mem_cons, not_or] at hno
    obtain ⟨found, hfound, hle⟩ := ih hno.2
    rw [List.cons_append, plainRun]
    split
    · exact ⟨[], rfl, Nat.zero_le _⟩
    · rw [if_neg (Ne.symm hno.1), hfound]
      exact ⟨c :: found, rfl, Nat.succ_le_succ hle⟩

theorem quotedRun_eq_some_iff {quote : Char} {text run : List Char} :
    quotedRun quote text = some run ↔ quote ∉ run ∧ ∃ after, text = run ++ quote :: after ∧ EndsKey after := by
  constructor
  · intro h
    have hhead := List.head?_dropWhile_not (· != quote) text
    have hsplit : text = text.takeWhile (· != quote) ++ text.dropWhile (· != quote) :=
      List.takeWhile_append_dropWhile.symm
    unfold quotedRun at h
    split at h
    case h_1 => simp at h
    case h_2 d after hdrop =>
      rw [hdrop] at hhead hsplit
      obtain rfl : d = quote := by simpa using hhead
      split at h
      case isTrue hcolon =>
        obtain rfl := Option.some.inj h
        refine ⟨?_, after, hsplit, atColon_iff.1 hcolon⟩
        intro hmem
        simpa using List.mem_takeWhile_imp hmem
      case isFalse => simp at h
  · rintro ⟨hno, after, rfl, hends⟩
    have hall : ∀ c ∈ run, (c != quote) = true := by
      intro c hc
      rw [bne_iff_ne]
      rintro rfl
      exact hno hc
    have hdrop : (run ++ quote :: after).dropWhile (· != quote) = quote :: after := by
      rw [List.dropWhile_append_of_pos hall, List.dropWhile_cons_of_neg (by simp)]
    have htake : (run ++ quote :: after).takeWhile (· != quote) = run := by
      rw [List.takeWhile_append_of_pos hall, List.takeWhile_cons_of_neg (by simp), List.append_nil]
    rw [quotedRun, hdrop]
    simp [atColon_iff.2 hends, htake]

theorem startsPlain_iff {c : Char} :
    startsPlain c = true ↔ isBlank c = false ∧ c ∉ ['#', '\'', '"', '[', ']', '{', '}', ','] := by
  simp [startsPlain]

theorem spelling_of_keyAt {text run : List Char} {lead : Nat} (h : keyAt text = some (lead, run)) :
    ∃ quoting after, Spelling quoting run after text ∧ lead = quoting.mark.length := by
  unfold keyAt at h
  split at h
  case h_1 => simp at h
  case h_2 c rest =>
    split at h
    case isTrue hquote =>
      obtain ⟨found, hfound, heq⟩ := Option.map_eq_some_iff.1 h
      obtain ⟨rfl, rfl⟩ := Prod.mk.inj heq
      obtain ⟨hno, after, rfl, hends⟩ := quotedRun_eq_some_iff.1 hfound
      rcases hquote with rfl | rfl
      · exact ⟨.double, after, ⟨by simp [Quoting.mark], hno, hends⟩, rfl⟩
      · exact ⟨.single, after, ⟨by simp [Quoting.mark], hno, hends⟩, rfl⟩
    case isFalse =>
      split at h
      case isTrue hstart =>
        obtain ⟨found, hfound, heq⟩ := Option.map_eq_some_iff.1 h
        obtain ⟨rfl, rfl⟩ := Prod.mk.inj heq
        obtain ⟨after, rfl, hno, hends⟩ := plainRun_inv hfound
        obtain ⟨hblank, hfirst⟩ := startsPlain_iff.1 hstart
        refine ⟨.plain, after, ⟨by simp [Quoting.mark], ⟨?_, c, found, rfl, hblank, hfirst⟩, hends⟩, rfl⟩
        rw [List.mem_cons, not_or]
        refine ⟨?_, hno⟩
        rintro rfl
        exact hfirst List.mem_cons_self
      case isFalse => simp at h

theorem keyAt_quoted {quote : Char} {run after : List Char} (hquote : quote = '"' ∨ quote = '\'') (hno : quote ∉ run)
    (hends : EndsKey after) : keyAt (quote :: (run ++ quote :: after)) = some (1, run) := by
  rw [keyAt, if_pos hquote, quotedRun_eq_some_iff.2 ⟨hno, after, rfl, hends⟩]
  rfl

/-- Where a key is spelled one is found, in the same way of writing and no longer. -/
theorem keyAt_of_spelling {quoting : Quoting} {run after text : List Char} (h : Spelling quoting run after text) :
    ∃ found behind, keyAt text = some (quoting.mark.length, found) ∧ Spelling quoting found behind text ∧
      found.length ≤ run.length := by
  obtain ⟨htext, hadmits, hends⟩ := h
  cases quoting with
  | single =>
    have hkey := keyAt_quoted (Or.inr rfl) hadmits hends
    exact ⟨run, after, by simpa [htext, Quoting.mark] using hkey, ⟨htext, hadmits, hends⟩, Nat.le_refl _⟩
  | double =>
    have hkey := keyAt_quoted (Or.inl rfl) hadmits hends
    exact ⟨run, after, by simpa [htext, Quoting.mark] using hkey, ⟨htext, hadmits, hends⟩, Nat.le_refl _⟩
  | plain =>
    obtain ⟨hno, c, more, rfl, hblank, hfirst⟩ := hadmits
    rw [List.mem_cons, not_or] at hno
    have hquotes : ¬ (c = '"' ∨ c = '\'') := by
      rintro (rfl | rfl)
      · exact hfirst (by decide)
      · exact hfirst (by decide)
    obtain ⟨found, hfound, hle⟩ := plainRun_le hno.2 hends
    obtain ⟨behind, hbehind, hnone, hstop⟩ := plainRun_inv hfound
    have hkey : keyAt text = some (0, c :: found) := by
      simp [htext, Quoting.mark, keyAt, hquotes, startsPlain_iff.2 ⟨hblank, hfirst⟩, hfound]
    have hadmits : Quoting.plain.Admits (c :: found) := by
      refine ⟨?_, c, found, rfl, hblank, hfirst⟩
      rw [List.mem_cons, not_or]
      exact ⟨hno.1, hnone⟩
    exact ⟨c :: found, behind, hkey, ⟨by simp [htext, Quoting.mark, hbehind], hadmits, hstop⟩, Nat.succ_le_succ hle⟩

theorem isSome_keyAt_iff {text : List Char} :
    (keyAt text).isSome = true ↔ ∃ quoting run after, Spelling quoting run after text := by
  constructor
  · intro h
    obtain ⟨⟨lead, run⟩, hkey⟩ := Option.isSome_iff_exists.1 h
    obtain ⟨quoting, after, hspelling, -⟩ := spelling_of_keyAt hkey
    exact ⟨quoting, run, after, hspelling⟩
  · rintro ⟨quoting, run, after, hspelling⟩
    obtain ⟨found, behind, hkey, -, -⟩ := keyAt_of_spelling hspelling
    rw [hkey]
    rfl

/-- **The key that is found is the shortest one spelled.** -/
theorem keyAt_eq_some_iff {text run : List Char} {lead : Nat} :
    keyAt text = some (lead, run) ↔ ∃ quoting after, Spelling quoting run after text ∧
      (∀ run' after', Spelling quoting run' after' text → run.length ≤ run'.length) ∧ lead = quoting.mark.length := by
  constructor
  · intro h
    obtain ⟨quoting, after, hspelling, hlead⟩ := spelling_of_keyAt h
    refine ⟨quoting, after, hspelling, ?_, hlead⟩
    intro run' after' hother
    obtain ⟨found, behind, hkey, -, hle⟩ := keyAt_of_spelling hother
    obtain ⟨-, rfl⟩ := Prod.mk.inj (Option.some.inj (h.symm.trans hkey))
    exact hle
  · rintro ⟨quoting, after, hspelling, hshortest, rfl⟩
    obtain ⟨found, behind, hkey, hfound, hle⟩ := keyAt_of_spelling hspelling
    -- both runs begin behind the same mark and are equally long
    have hlength : run.length = found.length := Nat.le_antisymm (hshortest found behind hfound) hle
    have htext := hspelling.text_eq.symm.trans hfound.text_eq
    simp only [List.append_assoc] at htext
    obtain ⟨rfl, -⟩ := List.append_inj (List.append_cancel_left htext) hlength
    exact hkey

/-! ## The row of a line -/

theorem isItem_iff {line : List Char} : isItem (line.dropWhile isIndent) = true ↔ IsItem line := by
  unfold IsItem
  cases line.dropWhile isIndent with
  | nil => simp [isItem]
  | cons c rest =>
    by_cases hc : c = '-'
    · subst hc
      cases rest with
      | nil => simp [isItem]
      | cons d rest => simp [isItem]
    · simp [isItem, hc]

theorem isTrivial_eq_true_iff {text : List Char} :
    isTrivial text = true ↔ trim text = [] ∨ (trim text).head? = some '#' := by
  unfold isTrivial
  cases trim text with
  | nil => simp
  | cons c rest => simp

/-- What a row says of a line that begins at byte `start` and shows `padding ++ rest`, where `padding` is its indentation. The
last three are about lines that are neither trivia nor items: their key is the one that the pattern finds; there is one exactly
if one is spelled; and it is the shortest one spelled, without white space at its end, at the offsets where that stands. -/
structure Row.Describes (row : Row) (start : Nat) (padding rest : List Char) : Prop where
  indent : row.indent = padding.length
  trivia : row.isTrivia = true ↔ trim rest = [] ∨ (trim rest).head? = some '#'
  keyless : row.isTrivia = true ∨ IsItem (padding ++ rest) → row.key = none
  pattern : row.isTrivia = false → ¬ IsItem (padding ++ rest) → row.key = patternKey (start + row.indent) rest
  found : row.isTrivia = false → ¬ IsItem (padding ++ rest) →
    (row.key.isSome = true ↔ ∃ quoting run after, Spelling quoting run after rest)
  key : row.isTrivia = false → ¬ IsItem (padding ++ rest) → ∀ key : KeySpan, row.key = some key ↔
    ∃ quoting run after, Spelling quoting run after rest ∧
      (∀ run' after', Spelling quoting run' after' rest → run.length ≤ run'.length) ∧
      key = ⟨trimEnd run, start + utf8Length (padding ++ quoting.mark),
        start + utf8Length (padding ++ quoting.mark ++ trimEnd run)⟩

theorem ofLine_key (n : Nat) (line : Line) (htrivia : (Row.ofLine n line).isTrivia = false) (hitem : ¬ IsItem line.text) :
    (Row.ofLine n line).key = (keyAt (line.text.dropWhile isIndent)).map fun found =>
      ⟨trimEnd found.2, line.start + (Row.ofLine n line).indent + found.1,
        line.start + (Row.ofLine n line).indent + found.1 + utf8Length (trimEnd found.2)⟩ := by
  have hno : isItem (line.text.dropWhile isIndent) = false := by
    rw [← Bool.not_eq_true, isItem_iff]
    exact hitem
  refine if_neg ?_
  rw [Bool.or_eq_true, not_or, Bool.not_eq_true, Bool.not_eq_true]
  exact ⟨htrivia, hno⟩

/-- The row of a line describes it. -/
theorem ofLine_describes (n : Nat) (line : Line) :
    (Row.ofLine n line).Describes line.start (line.text.takeWhile isIndent) (line.text.dropWhile isIndent) := by
  have hline : line.text.takeWhile isIndent ++ line.text.dropWhile isIndent = line.text :=
    List.takeWhile_append_dropWhile
  have htrivia : (Row.ofLine n line).isTrivia = isTrivial (line.text.dropWhile isIndent) := rfl
  constructor
  case indent => rfl
  case trivia => rw [htrivia, isTrivial_eq_true_iff]
  case keyless =>
    rw [hline, htrivia, ← isItem_iff, ← Bool.or_eq_true]
    intro h
    exact if_pos h
  all_goals
    rw [hline]
    intro hnot hitem
    have hkey := ofLine_key n line hnot hitem
  case pattern => rw [hkey, patternKey_eq]
  case found => rw [hkey, Option.isSome_map, isSome_keyAt_iff]
  case key =>
    intro key
    -- padding and marks have one byte for each character
    have hoffset (quoting : Quoting) : line.start + (Row.ofLine n line).indent + quoting.mark.length =
        line.start + utf8Length (line.text.takeWhile isIndent ++ quoting.mark) := by
      rw [utf8Length_append, utf8Length_takeWhile_isIndent, (Quoting.mark_lengths quoting).1, Nat.add_assoc]
      rfl
    rw [hkey, Option.map_eq_some_iff]
    constructor
    · rintro ⟨⟨lead, run⟩, hfound, rfl⟩
      obtain ⟨quoting, after, hspelling, hshortest, rfl⟩ := keyAt_eq_some_iff.1 hfound
      refine ⟨quoting, run, after, hspelling, hshortest, ?_⟩
      rw [hoffset, utf8Length_append _ (trimEnd run), Nat.add_assoc]
    · rintro ⟨quoting, run, after, hspelling, hshortest, rfl⟩
      refine ⟨(quoting.mark.length, run), keyAt_eq_some_iff.2 ⟨quoting, after, hspelling, hshortest, rfl⟩, ?_⟩
      rw [hoffset, utf8Length_append _ (trimEnd run), Nat.add_assoc]

/-- **Every line is classified exactly.** A line begins with its indentation, all the spaces and tabs at its front, and the
row describes the rest of it. The offsets of a key lie between characters, and the document has there the text of the key. -/
theorem rows_describe_lines (text : List Char) (n : Nat) (h : n < (LineTable.ofText text).size) :
    ∃ row start padding rest, (Layout.ofText text).rows[n]? = some row ∧
      (LineTable.ofText text).lineStart? n = some start ∧ (LineTable.ofText text).lineText? n = some (padding ++ rest) ∧
      (∀ c ∈ padding, c = ' ' ∨ c = '\t') ∧ (∀ c, rest.head? = some c → ¬ (c = ' ' ∨ c = '\t')) ∧
      row.Describes start padding rest ∧
      ∀ key, row.key = some key → onBoundary key.start text = true ∧ onBoundary key.stop text = true ∧
        sliceBytes key.start key.stop text = key.text := by
  obtain ⟨line, hline⟩ : ∃ line, (LineTable.ofText text).lines[n]? = some line := ⟨_, List.getElem?_eq_getElem h⟩
  have hrow : (Layout.ofText text).rows[n]? = some (Row.ofLine n line) := by rw [getElem?_rows, hline, Option.map_some]
  refine ⟨Row.ofLine n line, line.start, line.text.takeWhile isIndent, line.text.dropWhile isIndent, hrow, ?_, ?_, ?_, ?_,
    ofLine_describes n line, ?_⟩
  · rw [LineTable.lineStart?, hline, Option.map_some]
  · rw [LineTable.lineText?, hline, Option.map_some, List.takeWhile_append_dropWhile]
  · intro c hc
    exact isIndent_iff.1 (List.mem_takeWhile_imp hc)
  · intro c hc
    have hhead := List.head?_dropWhile_not isIndent line.text
    rw [hc] at hhead
    rw [← isIndent_iff, hhead]
    exact Bool.false_ne_true
  · intro key hkey
    have hmem : Row.ofLine n line ∈ (Layout.ofText text).rows := List.mem_of_getElem? hrow
    obtain ⟨hstart, hstop⟩ := onBoundary_key hmem hkey
    obtain ⟨front, back, htext, hfront, hlength, -, -⟩ := key_stands hmem hkey
    refine ⟨hstart, hstop, ?_⟩
    rw [← hlength, ← hfront, htext, sliceBytes_append]

/-- a plain key with a colon in it that ends no key, a space that does not break at its end, and a tab before its colon -/
def colonInKey : List Char := "workflows:\r\n \tk:é x\u00a0\t: v: w\r\n".toList

/-- The key ends at the second colon, and it is shown without the space. -/
theorem colon_in_key_described :
    1 < (LineTable.ofText colonInKey).size ∧
    ∃ row, (Layout.ofText colonInKey).rows[1]? = some row ∧ row.isTrivia = false ∧
      row.key = some ⟨"k:é x".toList, 14, 20⟩ ∧ sliceBytes 14 20 colonInKey = "k:é x".toList ∧
      ∃ quoting run after rest, Spelling quoting run after rest ∧ trimEnd run = "k:é x".toList := by
  have hsize : 1 < (LineTable.ofText colonInKey).size := by decide +kernel
  obtain ⟨row, start, padding, rest, hrow, -, hshown, -, -, hdescribes, hspan⟩ := rows_describe_lines colonInKey 1 hsize
  have hvalue : (Layout.ofText colonInKey).rows[1]? = some ⟨1, 2, false, some ⟨"k:é x".toList, 14, 20⟩⟩ := by
    decide +kernel
  obtain rfl := Option.some.inj (hvalue.symm.trans hrow)
  have hline : padding ++ rest = " \tk:é x\u00a0\t: v: w".toList :=
    Option.some.inj (hshown.symm.trans (by decide +kernel))
  have hitem : ¬ IsItem (padding ++ rest) := by
    rw [hline, ← isItem_iff]
    decide +kernel
  obtain ⟨quoting, run, after, hspelling, -, hkey⟩ := (hdescribes.key rfl hitem _).1 rfl
  obtain ⟨-, -, hslice⟩ := hspan _ rfl
  exact ⟨hsize, _, hvalue, rfl, rfl, hslice, quoting, run, after, rest, hspelling, (congrArg KeySpan.text hkey).symm⟩

end Layout

end WorkflowLint
