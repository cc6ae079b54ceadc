/-
The range of a lookup covers the key that was found, and nothing else.

A lookup tries one path of keys, and if there is a name to fall back to, the path to that (`Lookup.trail`). `Lookup.found?` is
the first of them that leads to a block; the range is that of its header, or the top of the document (`range_eq_found`).

`range_key` measures a key on its line: the columns of its ends are the lengths of what stands before them there, so that only
the characters of the line decide them (`keyColumns`), and the line is the one with the number of the row. So the range keeps to
one line and to what is shown of it, and `lookup_ranges_spell` says besides that the characters between its two ends are those of
the name.
-/
import WorkflowLint.Proofs.Offsets

namespace WorkflowLint

open WorkflowLint.Text

namespace Text

/-- the characters between two byte offsets -/
def sliceBytes (a b : Nat) (text : List Char) : List Char :=
  takeBytes (b - a) (text.drop (takeBytes a text).length)

theorem sliceBytes_append (front name back : List Char) :
    sliceBytes (utf8Length front) (utf8Length front + utf8Length name) (front ++ (name ++ back)) = name := by
  rw [sliceBytes, takeBytes_append, Nat.add_sub_cancel_left, List.drop_left, takeBytes_append]

end Text

/-! ## Places on a line -/

/-- The column of a place on a line is the length of what stands before it there. -/
theorem LineTable.position_on_line {text front back : List Char} {n : Nat} {line : Line}
    (hline : (LineTable.ofText text).lines[n]? = some line) (hchars : line.chars = front ++ back) :
    onBoundary (line.start + utf8Length front) text = true ∧
      (LineTable.ofText text).position (line.start + utf8Length front) = ⟨n, utf16Length front⟩ := by
  obtain ⟨above, after, htext, hstart, hlength, habove, hfeed⟩ := linesFrom_below hline
  have hsplit : text = (closedLines above ++ front) ++ (back ++ after) := by
    rw [htext, hchars]
    simp
  have hoffset : line.start + utf8Length front = utf8Length (closedLines above ++ front) := by
    rw [utf8Length_append, ← hstart, Nat.zero_add]
  have hfront : '\n' ∉ front := by
    intro hmem
    rw [hchars] at hfeed
    exact hfeed (List.mem_append_left _ hmem)
  rw [hsplit, hoffset]
  refine ⟨onBoundary_append _ _, ?_⟩
  rw [LineTable.position_append, Position.advanceAll_append, Position.zero, Position.advanceAll_closedLines 0 habove,
    Position.advanceAll_of_not_mem _ hfront, hlength, Nat.zero_add, Nat.zero_add]

namespace Layout

/-- the columns of the two ends of the key that a line declares -/
def keyColumns (chars : List Char) : Option (Nat × Nat) :=
  (Row.ofLine 0 ⟨0, chars⟩).key.map fun key =>
    (utf16Length (takeBytes key.start chars), utf16Length (takeBytes key.stop chars))

/-- The columns of a key are the lengths of what stands before its ends. -/
theorem keyColumns_eq {line : Line} {key : KeySpan} (h : (Row.ofLine 0 ⟨0, line.chars⟩).key = some key) :
    ∃ front back, line.text = front ++ key.text ++ back ∧ utf8Length front = key.start ∧
      utf8Length (front ++ key.text) = key.stop ∧
      keyColumns line.chars = some (utf16Length front, utf16Length (front ++ key.text)) := by
  obtain ⟨front, back, htext, hstart, hstop⟩ := ofLine_key_stands h
  obtain ⟨ending, hchars⟩ := line.exists_chars_eq
  replace htext : line.text = front ++ key.text ++ back := htext.trans (List.append_assoc _ _ _).symm
  have hfront : utf8Length front = key.start := (Nat.zero_add _).symm.trans hstart
  have hboth : utf8Length (front ++ key.text) = key.stop := by rw [utf8Length_append, hfront, hstop]
  have htake : takeBytes key.start line.chars = front := by
    rw [hchars, htext, ← hfront, List.append_assoc, List.append_assoc, takeBytes_append]
  have htake' : takeBytes key.stop line.chars = front ++ key.text := by
    rw [hchars, htext, ← hboth, List.append_assoc _ back, takeBytes_append]
  refine ⟨front, back, htext, hfront, hboth, ?_⟩
  rw [keyColumns, h, Option.map_some, htake, htake']

/-- The range of a row's key is on the line of the row, at columns that only the characters of the line decide. -/
theorem range_key {text : List Char} {row : Row} {key : KeySpan} (hrow : row ∈ (Layout.ofText text).rows)
    (hkey : row.key = some key) :
    ∃ line a b, (LineTable.ofText text).lines[row.number]? = some line ∧ keyColumns line.chars = some (a, b) ∧ a ≤ b ∧
      b ≤ utf16Length line.text ∧
      (LineTable.ofText text).range key.start key.stop = ⟨⟨row.number, a⟩, ⟨row.number, b⟩⟩ := by
  obtain ⟨n, hn⟩ := List.getElem?_of_mem hrow
  obtain rfl := number_of_getElem? hn
  rw [getElem?_rows] at hn
  obtain ⟨line, hline, hof⟩ := Option.map_eq_some_iff.1 hn
  rw [← hof, ofLine_key_eq] at hkey
  obtain ⟨own, hown, rfl⟩ := Option.map_eq_some_iff.1 hkey
  obtain ⟨front, back, htext, hstart, hstop, hcolumns⟩ := keyColumns_eq hown
  obtain ⟨ending, hchars⟩ := line.exists_chars_eq
  rw [htext] at hchars
  have hlead : line.chars = front ++ (own.text ++ back ++ ending) := by rw [hchars]; simp
  obtain ⟨hbefore, hfirst⟩ := LineTable.position_on_line hline hlead
  obtain ⟨hbehind, hlast⟩ := LineTable.position_on_line hline (hchars.trans (List.append_assoc _ _ _))
  rw [hstart] at hbefore hfirst
  rw [hstop] at hbehind hlast
  have hle : own.start ≤ own.stop := by
    rw [← hstart, ← hstop, utf8Length_append]
    exact Nat.le_add_right _ _
  refine ⟨line, _, _, hline, hcolumns, ?_, ?_, ?_⟩
  · rw [utf16Length_append]
    exact Nat.le_add_right _ _
  · rw [htext, utf16Length_append _ back]
    exact Nat.le_add_right _ _
  · rw [LineTable.range_of_le hbefore hbehind (Nat.add_le_add_left hle _), hfirst, hlast]

theorem exists_key_of_declares {row : Row} {name : String} (h : row.declares name = true) :
    ∃ key, row.key = some key ∧ key.text = name.toList := by
  unfold Row.declares at h
  cases hkey : row.key with
  | none => simp [hkey] at h
  | some key => exact ⟨key, rfl, by simpa [hkey] using h⟩

theorem headerRange_of_key {layout : Layout} {block : Block} {key : KeySpan} (h : block.header.key = some key) :
    layout.headerRange block = layout.table.range key.start key.stop := by
  rw [headerRange, headerVia, h]

/-! ## What a lookup finds -/

/-- What a path leads to declares the last of its keys. -/
theorem declares_of_descend {path : List String} {rows : List Row} {block : Block} (h : descend path rows = some block) :
    ∃ name ∈ path.getLast?, block.header.declares name = true := by
  fun_induction descend path rows with
  | case1 => simp at h
  | case2 name rows => exact ⟨name, rfl, (child?_inv h).2.1⟩
  | case3 name next path rows ih =>
    obtain ⟨outer, -, hinner⟩ := Option.bind_eq_some_iff.1 h
    obtain ⟨last, hlast, hdeclares⟩ := ih outer hinner
    exact ⟨last, by simpa using hlast, hdeclares⟩

namespace Lookup

/-- the paths that a lookup tries, one after the other -/
def trail : Lookup → List (List String)
  | rootKey key => [[key]]
  | workflow w => [["workflows", w]]
  | workflowKey w key => [["workflows", w, key], ["workflows", w]]
  | task w t => [["workflows", w, "tasks", t]]
  | taskKey w t key => [["workflows", w, "tasks", t, key], ["workflows", w, "tasks", t]]

/-- the first path that leads to a block, and that block -/
def firstFound (layout : Layout) (paths : List (List String)) : Option (List String × Block) :=
  paths.findSome? fun path => (descend path layout.rows).map fun block => (path, block)

/-- what a lookup finds: the header of the block is the one whose range it gives -/
def found? (layout : Layout) (lookup : Lookup) : Option (List String × Block) :=
  firstFound layout lookup.trail

/-- the range of the header that was found, or the top of the document -/
def foundRange (layout : Layout) : Option (List String × Block) → Range
  | some (_, block) => layout.headerRange block
  | none => layout.top

theorem foundRange_cons (layout : Layout) (path : List String) (paths : List (List String)) :
    foundRange layout (firstFound layout (path :: paths)) =
      layout.rangeOr (foundRange layout (firstFound layout paths)) (descend path layout.rows) := by
  rw [firstFound, List.findSome?_cons]
  cases descend path layout.rows with
  | none => rfl
  | some block => rfl

/-- A lookup gives the range of the header that it finds. -/
theorem range_eq_found (layout : Layout) (lookup : Lookup) :
    lookup.range layout = foundRange layout (lookup.found? layout) := by
  have hdirect (path : List String) :
      layout.rangeOr layout.top (descend path layout.rows) = foundRange layout (firstFound layout [path]) :=
    (foundRange_cons layout path []).symm
  rw [range_eq]
  cases lookup with
  | rootKey key => exact hdirect _
  | workflow w => exact hdirect _
  | task w t => exact hdirect _
  | workflowKey w key =>
    have hfallback : layout.workflow w = foundRange layout (firstFound layout [["workflows", w]]) :=
      (range_eq layout (.workflow w)).trans (hdirect _)
    rw [found?, trail, foundRange_cons, ← hfallback]
    rfl
  | taskKey w t key =>
    have hfallback : layout.task w t = foundRange layout (firstFound layout [["workflows", w, "tasks", t]]) :=
      (range_eq layout (.task w t)).trans (hdirect _)
    rw [found?, trail, foundRange_cons, ← hfallback]
    rfl

theorem descend_of_found {layout : Layout} {lookup : Lookup} {path : List String} {block : Block}
    (h : lookup.found? layout = some (path, block)) : descend path layout.rows = some block := by
  obtain ⟨other, -, hother⟩ := List.exists_of_findSome?_eq_some h
  obtain ⟨found, hfound, heq⟩ := Option.map_eq_some_iff.1 hother
  obtain ⟨rfl, rfl⟩ := Prod.mk.inj heq
  exact hfound

end Lookup

/-! ## One line, and the name on it -/

/-- the range is on one line of the document, within what is shown of that line -/
def OnLine (table : LineTable) (range : Range) : Prop :=
  range.start.line < table.size ∧ range.stop.line = range.start.line ∧ range.start.character ≤ range.stop.character ∧
    ∃ shown, table.lineText? range.start.line = some shown ∧ range.stop.character ≤ utf16Length shown

/-- The characters of the document between the offsets of the two ends of a range are those of the name. There is one offset
for each end, since different boundaries have different positions (`LineTable.position_injective`). -/
def Spells (text : List Char) (range : Range) (name : String) : Prop :=
  ∃ a b, onBoundary a text = true ∧ onBoundary b text = true ∧ (LineTable.ofText text).position a = range.start ∧
    (LineTable.ofText text).position b = range.stop ∧ sliceBytes a b text = name.toList

theorem onLine_of_getElem? {table : LineTable} {n a b : Nat} {line : Line} (hline : table.lines[n]? = some line) (hab : a ≤ b)
    (hb : b ≤ utf16Length line.text) : OnLine table ⟨⟨n, a⟩, ⟨n, b⟩⟩ := by
  have hshown : table.lineText? n = some line.text := by rw [LineTable.lineText?, hline, Option.map_some]
  exact ⟨(List.getElem?_eq_some_iff.1 hline).1, rfl, hab, line.text, hshown, hb⟩

/-- The top of the document is on its first line. -/
theorem onLine_top (text : List Char) : OnLine (LineTable.ofText text) (Layout.ofText text).top := by
  obtain ⟨chars, lines, hlines, -⟩ := linesFrom_eq_cons 0 text
  have hfirst : (LineTable.ofText text).lines[0]? = some ⟨0, chars⟩ := by
    show (linesFrom 0 text)[0]? = _
    rw [hlines]
    rfl
  rw [top_of_first_line hfirst]
  exact onLine_of_getElem? hfirst (Nat.zero_le _) (Nat.min_le_left _ _)

section

variable {text : List Char} {block : Block} {name : String} (hmem : block.header ∈ (Layout.ofText text).rows)
  (hdeclares : block.header.declares name = true)
include hmem hdeclares

theorem onLine_headerRange : OnLine (LineTable.ofText text) ((Layout.ofText text).headerRange block) ∧
    ((Layout.ofText text).headerRange block).start.line = block.header.number := by
  obtain ⟨key, hkey, hname⟩ := exists_key_of_declares hdeclares
  obtain ⟨line, a, b, hline, -, hab, hb, hrange⟩ := range_key hmem hkey
  rw [(headerRange_of_key hkey).trans hrange]
  exact ⟨onLine_of_getElem? hline hab hb, rfl⟩

theorem spells_headerRange : Spells text ((Layout.ofText text).headerRange block) name := by
  obtain ⟨key, hkey, hname⟩ := exists_key_of_declares hdeclares
  obtain ⟨front, back, htext, hstart, hstop, -, -⟩ := key_stands hmem hkey
  obtain ⟨hbefore, hbehind⟩ := onBoundary_key hmem hkey
  rw [(headerRange_of_key hkey).trans (LineTable.range_of_le hbefore hbehind (by omega))]
  refine ⟨key.start, key.stop, hbefore, hbehind, rfl, rfl, ?_⟩
  rw [← hname, ← hstop, ← hstart, htext, sliceBytes_append]

end

/-- **Lookups cover the name, in any text.** The top of the document and the range of every lookup are on one line that is
there, within what is shown of it. A lookup that finds nothing gives the top. One that finds a header gives a range on the line
of that header, and the document has there exactly the name that ends the path: the key that was asked for, or the name of the
workflow or task that was fallen back to. -/
theorem lookup_ranges_spell (text : List Char) :
    let layout := Layout.ofText text
    OnLine layout.table layout.top ∧
    ∀ lookup : Lookup, OnLine layout.table (lookup.range layout) ∧
      (lookup.found? layout = none → lookup.range layout = layout.top) ∧
      ∀ path block, lookup.found? layout = some (path, block) →
        (lookup.range layout).start.line = block.header.number ∧
          ∃ name ∈ path.getLast?, Spells text (lookup.range layout) name := by
  intro layout
  refine ⟨onLine_top text, fun lookup => ?_⟩
  rw [Lookup.range_eq_found]
  cases hfound : lookup.found? layout with
  | none => exact ⟨onLine_top text, fun _ => rfl, nofun⟩
  | some found =>
    obtain ⟨path, block⟩ := found
    have hblock := Lookup.descend_of_found hfound
    have hmem := header_mem_of_descend hblock
    obtain ⟨name, hname, hdeclares⟩ := declares_of_descend hblock
    obtain ⟨hline, hnumber⟩ := onLine_headerRange hmem hdeclares
    refine ⟨hline, nofun, fun path' block' heq => ?_⟩
    obtain ⟨rfl, rfl⟩ := Prod.mk.inj (Option.some.inj heq)
    exact ⟨hnumber, name, hname, spells_headerRange hmem hdeclares⟩

/-- a workflow whose name has a character of two code units and ends, inside its quotes, in a space that does not break -/
def wideKey : List Char := "workflows:\r\n  \"😀 x\u00a0\" :\r\n    tasks: 1".toList

/-- The missing attribute falls back to the name, without the quotes and the space. -/
theorem wide_key_spelled :
    (Layout.ofText wideKey).workflowKey "😀 x" "type" = ⟨⟨1, 3⟩, ⟨1, 7⟩⟩ ∧ Spells wideKey ⟨⟨1, 3⟩, ⟨1, 7⟩⟩ "😀 x" := by
  let lookup := Lookup.workflowKey "😀 x" "type"
  have hrange : lookup.range (Layout.ofText wideKey) = ⟨⟨1, 3⟩, ⟨1, 7⟩⟩ := by decide +kernel
  have hpath : (lookup.found? (Layout.ofText wideKey)).map Prod.fst = some ["workflows", "😀 x"] := by decide +kernel
  obtain ⟨⟨path, block⟩, hfound, rfl⟩ := Option.map_eq_some_iff.1 hpath
  obtain ⟨-, hlookups⟩ := lookup_ranges_spell wideKey
  obtain ⟨-, name, hname, hspells⟩ := (hlookups lookup).2.2 _ block hfound
  obtain rfl : "😀 x" = name := Option.some.inj hname
  rw [hrange] at hspells
  exact ⟨hrange, hspells⟩

end Layout

end WorkflowLint
