/-
The lines of a text partition it.

A table of lines can be told from the bytes of the text alone: the first line begins at offset 0, and each other one just
behind a byte `0x0A`. Only the line feed has that byte in its encoding, so these are the offsets of the lines that are read
off the characters (`map_start_linesFrom`).

`linesFrom_step` is one step from a line to the next: either the line ends the text, or a line feed stands behind it and the
lines below are those of what comes after that. So what stands between the beginnings of two lines (`slice?`) is the line with
its line feed (`slice?_of_line`), or what the line shows and its ending (`slice?_ending`). The slices of the first lines, put
after one another, reach exactly to where the next one begins (`flatten_slices_above`), and all of them are the text.
-/
import WorkflowLint.Proofs.KeyRanges

namespace WorkflowLint

open WorkflowLint.Text

/-! ## Bytes -/

namespace Text

/-- the bytes of a text in UTF-8 -/
def utf8Bytes (text : List Char) : List UInt8 :=
  text.flatMap String.utf8EncodeChar

/-- the offsets just behind the line feeds among bytes that begin at `start` -/
def feedEnds (start : Nat) (bytes : List UInt8) : List Nat :=
  ((bytes.zipIdx start).filter fun entry => entry.1 == 0x0A).map fun entry => entry.2 + 1

theorem length_utf8Bytes (text : List Char) : (utf8Bytes text).length = utf8Length text := by
  induction text with
  | nil => rfl
  | cons c text ih =>
    have hrest : (text.flatMap String.utf8EncodeChar).length = utf8Length text := ih
    rw [utf8Bytes, List.flatMap_cons, List.length_append, String.length_utf8EncodeChar, hrest, utf8Length]

theorem toNat_ofNat_of_lt {n : Nat} (h : n < 0x100) : (UInt8.ofNat n).toNat = n := by
  rw [UInt8.toNat_ofNat', Nat.mod_eq_of_lt h]

/-- In an encoding of several bytes each of them is at least `0x80`. -/
theorem high_of_mem_utf8EncodeChar {c : Char} (hc : 0x7F < c.toNat) {byte : UInt8} (h : byte ∈ String.utf8EncodeChar c) :
    0x80 ≤ byte.toNat := by
  have hhigh {n : Nat} (hlow : 0x80 ≤ n) (hlt : n < 0x100) : 0x80 ≤ (UInt8.ofNat n).toNat := by
    rwa [toNat_ofNat_of_lt hlt]
  have hmany : ¬ c.val.toNat ≤ 0x7F := Nat.not_le_of_lt hc
  simp only [String.utf8EncodeChar, hmany, if_false] at h
  split_ifs at h <;> simp only [List.mem_cons, List.not_mem_nil, or_false] at h
  -- two, three and four bytes
  · rcases h with rfl | rfl <;> exact hhigh (by omega) (by omega)
  · rcases h with rfl | rfl | rfl <;> exact hhigh (by omega) (by omega)
  · rcases h with rfl | rfl | rfl | rfl <;> exact hhigh (by omega) (by omega)

/-- Only the line feed has the byte of a line feed in its encoding. -/
theorem eq_feed_of_mem_utf8EncodeChar {c : Char} (h : 0x0A ∈ String.utf8EncodeChar c) : c = '\n' := by
  by_cases hone : c.toNat ≤ 0x7F
  · have hbyte : (0x0A : UInt8) = UInt8.ofNat c.toNat := by simpa [String.utf8EncodeChar, hone] using h
    have hcode : 0x0A = c.toNat := (congrArg UInt8.toNat hbyte).trans (toNat_ofNat_of_lt (by omega))
    apply Char.ext
    apply UInt32.toNat_inj.1
    exact hcode.symm
  · have hlow : 0x80 ≤ 0x0A := high_of_mem_utf8EncodeChar (Nat.lt_of_not_le hone) h
    omega

theorem feed_not_mem_utf8Bytes {text : List Char} (h : '\n' ∉ text) : 0x0A ∉ utf8Bytes text := by
  intro hmem
  obtain ⟨c, hc, hbyte⟩ := List.mem_flatMap.1 hmem
  rw [eq_feed_of_mem_utf8EncodeChar hbyte] at hc
  exact h hc

theorem feedEnds_of_not_mem (start : Nat) {bytes : List UInt8} (h : 0x0A ∉ bytes) : feedEnds start bytes = [] := by
  rw [feedEnds, List.map_eq_nil_iff, List.filter_eq_nil_iff]
  rintro ⟨byte, offset⟩ hentry hfeed
  rw [beq_iff_eq] at hfeed
  subst hfeed
  exact h (List.fst_mem_of_mem_zipIdx hentry)

theorem feedEnds_append (start : Nat) (front back : List UInt8) :
    feedEnds start (front ++ back) = feedEnds start front ++ feedEnds (start + front.length) back := by
  rw [feedEnds, List.zipIdx_append, List.filter_append, List.map_append]
  rfl

theorem feedEnds_feed (start : Nat) (bytes : List UInt8) :
    feedEnds start (0x0A :: bytes) = (start + 1) :: feedEnds (start + 1) bytes := by
  simp [feedEnds]

end Text

/-- **Lines begin at the front and behind each byte of a line feed.** -/
theorem map_start_linesFrom (start : Nat) (text : List Char) :
    (linesFrom start text).map Line.start = start :: feedEnds start (utf8Bytes text) := by
  induction text using line_induction generalizing start with
  | last line hline =>
    rw [linesFrom_of_not_mem start hline, feedEnds_of_not_mem start (feed_not_mem_utf8Bytes hline)]
    rfl
  | next line rest hline ih =>
    have hbytes : utf8Bytes (line ++ '\n' :: rest) = utf8Bytes line ++ 0x0A :: utf8Bytes rest := by
      rw [utf8Bytes, List.flatMap_append, List.flatMap_cons]
      rfl
    rw [linesFrom_append start rest hline, List.map_cons, ih, hbytes, feedEnds_append, length_utf8Bytes,
      feedEnds_of_not_mem start (feed_not_mem_utf8Bytes hline), List.nil_append, feedEnds_feed]

/-! ## From a line to the next -/

theorem length_linesFrom (start : Nat) (text : List Char) : (linesFrom start text).length = 1 + text.count '\n' := by
  induction text using line_induction generalizing start with
  | last line hline => rw [linesFrom_of_not_mem start hline, List.count_eq_zero.2 hline]; rfl
  | next line rest hline ih =>
    rw [linesFrom_append start rest hline, List.length_cons, ih, List.count_append, List.count_eq_zero.2 hline,
      List.count_cons_self]
    omega

theorem pairwise_start_linesFrom (start : Nat) (text : List Char) :
    (linesFrom start text).Pairwise fun a b => a.start < b.start := by
  induction text using line_induction generalizing start with
  | last line hline =>
    rw [linesFrom_of_not_mem start hline]
    exact List.pairwise_singleton _ _
  | next line rest hline ih =>
    obtain ⟨chars, lines, hlines, hlater⟩ := linesFrom_eq_cons start (line ++ '\n' :: rest)
    rw [linesFrom_append start rest hline] at hlines ⊢
    obtain ⟨-, rfl⟩ := List.cons.inj hlines
    exact List.pairwise_cons.2 ⟨hlater, ih _⟩

/-- A line ends the text, or the lines below it are those of what stands behind its line feed. -/
theorem linesFrom_step {start k : Nat} {text : List Char} {line : Line} (h : (linesFrom start text)[k]? = some line) :
    ∃ before, line.start = start + utf8Length before ∧ '\n' ∉ line.chars ∧
      ((linesFrom start text).drop (k + 1) = [] ∧ text = before ++ line.chars ∨
        ∃ below, (linesFrom start text).drop (k + 1) = linesFrom (line.start + utf8Length line.chars + 1) below ∧
          text = before ++ (line.chars ++ '\n' :: below)) := by
  induction text using line_induction generalizing start k with
  | last chars hline =>
    rw [linesFrom_of_not_mem start hline] at h ⊢
    cases k with
    | zero =>
      obtain rfl := Option.some.inj h
      exact ⟨[], rfl, hline, Or.inl ⟨rfl, rfl⟩⟩
    | succ k => simp at h
  | next chars rest hline ih =>
    rw [linesFrom_append start rest hline] at h ⊢
    cases k with
    | zero =>
      obtain rfl := Option.some.inj h
      exact ⟨[], rfl, hline, Or.inr ⟨rest, rfl, rfl⟩⟩
    | succ k =>
      obtain ⟨before, hstart, hfeed, hstep⟩ := ih h
      have hlength : utf8Length (chars ++ '\n' :: before) = utf8Length chars + 1 + utf8Length before := by
        rw [utf8Length_append, utf8Length, Nat.add_assoc]
        rfl
      refine ⟨chars ++ '\n' :: before, by rw [hstart, hlength]; omega, hfeed, ?_⟩
      rcases hstep with ⟨hdrop, rfl⟩ | ⟨below, hdrop, rfl⟩
      · exact Or.inl ⟨hdrop, by simp⟩
      · exact Or.inr ⟨below, hdrop, by simp⟩

/-! ## Slices -/

namespace Text

theorem takeBytes_append_of_le {n : Nat} {front : List Char} (back : List Char) (h : utf8Length front ≤ n) :
    takeBytes n (front ++ back) = front ++ takeBytes (n - utf8Length front) back := by
  induction front generalizing n with
  | nil => rfl
  | cons c front ih =>
    rw [utf8Length] at h
    have hrest : n - c.utf8Size - utf8Length front = n - (c.utf8Size + utf8Length front) := by omega
    rw [List.cons_append, takeBytes, if_pos (by omega), ih (by omega), hrest]
    rfl

/-- A slice continues what stands before it. -/
theorem takeBytes_append_sliceBytes {a b : Nat} {text : List Char} (ha : onBoundary a text = true) (hab : a ≤ b) :
    takeBytes a text ++ sliceBytes a b text = takeBytes b text := by
  obtain ⟨front, back, rfl, rfl⟩ := onBoundary_iff.1 ha
  rw [sliceBytes, takeBytes_append, List.drop_left, takeBytes_append_of_le back hab]

end Text

/-- The characters of a line are its text and at most one carriage return, which is never left to the text alone. -/
theorem Line.exists_return (line : Line) : ∃ trail, line.chars = line.text ++ trail ∧ (trail = [] ∨ trail = ['\r']) ∧
    (line.text.getLast? = some '\r' → trail = ['\r']) := by
  unfold Line.text
  split
  case isTrue hlast =>
    obtain ⟨front, hfront⟩ := List.getLast?_eq_some_iff.1 hlast
    exact ⟨['\r'], by rw [hfront, List.dropLast_concat], Or.inr rfl, fun _ => rfl⟩
  case isFalse hlast => exact ⟨[], (List.append_nil _).symm, Or.inl rfl, fun h => absurd h hlast⟩

namespace LineTable

/-- where the line below line `n` begins, or where the text ends if there is none -/
def lineStop (table : LineTable) (n : Nat) : Nat :=
  (table.lineStart? (n + 1)).getD (utf8Length table.source)

/-- the text from where a line begins to where the next one does -/
def slice? (table : LineTable) (n : Nat) : Option (List Char) :=
  (table.lineStart? n).map fun start => sliceBytes start (table.lineStop n) table.source

theorem lineStart?_eq_none_iff {table : LineTable} {n : Nat} : table.lineStart? n = none ↔ table.size ≤ n := by
  rw [lineStart?, Option.map_eq_none_iff, List.getElem?_eq_none_iff, size]

theorem lineText?_eq_none_iff {table : LineTable} {n : Nat} : table.lineText? n = none ↔ table.size ≤ n := by
  rw [lineText?, Option.map_eq_none_iff, List.getElem?_eq_none_iff, size]

theorem exists_line_of_lineStart? {table : LineTable} {n start : Nat} (h : table.lineStart? n = some start) :
    ∃ line, table.lines[n]? = some line ∧ line.start = start :=
  Option.map_eq_some_iff.1 h

theorem lt_size_of_lineStart? {table : LineTable} {n start : Nat} (h : table.lineStart? n = some start) :
    n < table.size := by
  obtain ⟨line, hline, -⟩ := exists_line_of_lineStart? h
  exact (List.getElem?_eq_some_iff.1 hline).1

theorem exists_lineStart? {table : LineTable} {n : Nat} (h : n < table.size) : ∃ start, table.lineStart? n = some start := by
  apply Option.ne_none_iff_exists'.1
  rw [Ne, lineStart?_eq_none_iff]
  exact Nat.not_le_of_lt h

variable {text : List Char}

theorem lineStart?_zero (text : List Char) : (ofText text).lineStart? 0 = some 0 := by
  obtain ⟨chars, lines, hlines, -⟩ := linesFrom_eq_cons 0 text
  rw [lineStart?, ofText, hlines]
  rfl

theorem lineStart?_lt {m n a b : Nat} (hmn : m < n) (ha : (ofText text).lineStart? m = some a)
    (hb : (ofText text).lineStart? n = some b) : a < b := by
  obtain ⟨upper, hupper, rfl⟩ := exists_line_of_lineStart? ha
  obtain ⟨lower, hlower, rfl⟩ := exists_line_of_lineStart? hb
  obtain ⟨hm, rfl⟩ := List.getElem?_eq_some_iff.1 hupper
  obtain ⟨hn, rfl⟩ := List.getElem?_eq_some_iff.1 hlower
  exact List.pairwise_iff_getElem.1 (pairwise_start_linesFrom 0 text) m n hm hn hmn

theorem onBoundary_lineStart? {n start : Nat} (h : (ofText text).lineStart? n = some start) :
    onBoundary start text = true := by
  obtain ⟨line, hline, rfl⟩ := exists_line_of_lineStart? h
  obtain ⟨before, after, htext, hstart, -, -⟩ := linesFrom_stands hline
  exact onBoundary_iff.2 ⟨before, _, htext, (Nat.zero_add _).symm.trans hstart⟩

theorem slice?_eq_some {n : Nat} {before whole below : List Char} (htext : text = before ++ (whole ++ below))
    (hstart : (ofText text).lineStart? n = some (utf8Length before))
    (hstop : (ofText text).lineStop n = utf8Length before + utf8Length whole) :
    (ofText text).slice? n = some whole := by
  have hsource : (ofText text).source = before ++ (whole ++ below) := htext
  rw [slice?, hstart, Option.map_some, hstop, hsource, sliceBytes_append]

/-- **A line reaches to the next one.** Its slice is its characters with a line feed, but for the last line. -/
theorem slice?_of_line {n : Nat} {line : Line} (h : (ofText text).lines[n]? = some line) :
    n + 1 < (ofText text).size ∧ (ofText text).slice? n = some (line.chars ++ ['\n']) ∨
      n + 1 = (ofText text).size ∧ (ofText text).slice? n = some line.chars := by
  obtain ⟨before, hbefore, -, hstep⟩ := linesFrom_step h
  rw [Nat.zero_add] at hbefore
  have hstart : (ofText text).lineStart? n = some (utf8Length before) := by rw [lineStart?, h, Option.map_some, hbefore]
  rcases hstep with ⟨hdrop, htext⟩ | ⟨below, hdrop, htext⟩
  · right
    have hlast : (ofText text).size ≤ n + 1 := List.drop_eq_nil_iff.1 hdrop
    have hstop : (ofText text).lineStop n = utf8Length before + utf8Length line.chars := by
      rw [lineStop, lineStart?_eq_none_iff.2 hlast, ← utf8Length_append, ← htext]
      rfl
    have hwhole : text = before ++ (line.chars ++ []) := by rw [List.append_nil]; exact htext
    exact ⟨Nat.le_antisymm (lt_size_of_lineStart? hstart) hlast, slice?_eq_some hwhole hstart hstop⟩
  · left
    obtain ⟨chars, lines, hlines, -⟩ := linesFrom_eq_cons (line.start + utf8Length line.chars + 1) below
    have hhead : (ofText text).lines[n + 1]? = some ⟨line.start + utf8Length line.chars + 1, chars⟩ := by
      rw [← List.head?_drop]
      exact congrArg List.head? (hdrop.trans hlines)
    have hnext : (ofText text).lineStart? (n + 1) = some (utf8Length before + utf8Length (line.chars ++ ['\n'])) := by
      rw [lineStart?, hhead, Option.map_some, hbefore, utf8Length_append, ← Nat.add_assoc]
      rfl
    have hstop : (ofText text).lineStop n = utf8Length before + utf8Length (line.chars ++ ['\n']) := by
      rw [lineStop, hnext]
      rfl
    have hwhole : text = before ++ (line.chars ++ ['\n'] ++ below) := by rw [List.append_assoc]; exact htext
    exact ⟨lt_size_of_lineStart? hnext, slice?_eq_some hwhole hstart hstop⟩

/-- The slices of the lines above a line are what stands before it. -/
theorem flatten_slices_above {n start : Nat} (h : (ofText text).lineStart? n = some start) :
    ((List.range n).filterMap (ofText text).slice?).flatten = takeBytes start text := by
  induction n generalizing start with
  | zero =>
    rw [lineStart?_zero] at h
    obtain rfl := Option.some.inj h
    exact (takeBytes_zero text).symm
  | succ n ih =>
    obtain ⟨above, habove⟩ := exists_lineStart? (Nat.lt_of_succ_lt (lt_size_of_lineStart? h))
    have hle : above ≤ start := Nat.le_of_lt (lineStart?_lt (Nat.lt_succ_self n) habove h)
    have hslice : (ofText text).slice? n = some (sliceBytes above start text) := by
      rw [slice?, habove, lineStop, h]
      rfl
    rw [List.range_succ, List.filterMap_append, List.flatten_append, ih habove, List.filterMap_cons, hslice,
      List.filterMap_nil, List.flatten_cons, List.flatten_nil, List.append_nil]
    exact takeBytes_append_sliceBytes (onBoundary_lineStart? habove) hle

/-- The slices of all lines are the text. -/
theorem flatten_slices (text : List Char) :
    ((List.range (ofText text).size).filterMap (ofText text).slice?).flatten = text := by
  have hsize : (ofText text).size = text.count '\n' + 1 := (length_linesFrom 0 text).trans (Nat.add_comm _ _)
  have hlast : text.count '\n' < (ofText text).size := by rw [hsize]; exact Nat.lt_succ_self _
  obtain ⟨start, hstart⟩ := exists_lineStart? hlast
  have hslice : (ofText text).slice? (text.count '\n') = some (sliceBytes start (utf8Length text) text) := by
    rw [slice?, hstart, lineStop, lineStart?_eq_none_iff.2 (Nat.le_of_eq hsize)]
    rfl
  have hle : start ≤ utf8Length text := by
    obtain ⟨front, back, htext, rfl⟩ := onBoundary_iff.1 (onBoundary_lineStart? hstart)
    rw [htext, utf8Length_append]
    exact Nat.le_add_right _ _
  calc ((List.range (ofText text).size).filterMap (ofText text).slice?).flatten
      = takeBytes start text ++ sliceBytes start (utf8Length text) text := by
        rw [hsize, List.range_succ, List.filterMap_append, List.flatten_append, flatten_slices_above hstart]
        simp [hslice]
    _ = takeBytes (utf8Length text) text := takeBytes_append_sliceBytes (onBoundary_lineStart? hstart) hle
    _ = text := takeBytes_of_le (Nat.le_refl _)

/-- A line is shown without its ending: a line feed, or a carriage return and a line feed; on the last line nothing, or a
carriage return. -/
theorem slice?_ending {n : Nat} (h : n < (ofText text).size) :
    ∃ shown ending, (ofText text).lineText? n = some shown ∧ (ofText text).slice? n = some (shown ++ ending) ∧
      '\n' ∉ shown ∧ (n + 1 < (ofText text).size → ending = ['\n'] ∨ ending = ['\r', '\n']) ∧
      (n + 1 = (ofText text).size → ending = [] ∨ ending = ['\r']) ∧ (shown.getLast? = some '\r' → '\r' ∈ ending) := by
  obtain ⟨line, hline⟩ : ∃ line, (ofText text).lines[n]? = some line := ⟨_, List.getElem?_eq_getElem h⟩
  have hshown : (ofText text).lineText? n = some line.text := by rw [lineText?, hline, Option.map_some]
  obtain ⟨trail, hchars, htrail, hreturn⟩ := line.exists_return
  have hfeed : '\n' ∉ line.text := by
    intro hmem
    obtain ⟨-, -, hno, -⟩ := linesFrom_step hline
    rw [hchars] at hno
    exact hno (List.mem_append_left _ hmem)
  rcases slice?_of_line hline with ⟨hmore, hslice⟩ | ⟨hlast, hslice⟩
  · refine ⟨line.text, trail ++ ['\n'], hshown, by rw [hslice, hchars, List.append_assoc], hfeed, fun _ => ?_,
      fun hlast => absurd hlast (Nat.ne_of_lt hmore), fun hend => ?_⟩
    · rcases htrail with rfl | rfl
      · exact Or.inl rfl
      · exact Or.inr rfl
    · rw [hreturn hend]
      exact List.mem_cons_self
  · refine ⟨line.text, trail, hshown, by rw [hslice, hchars], hfeed, fun hmore => absurd hlast (Nat.ne_of_lt hmore),
      fun _ => htrail, fun hend => ?_⟩
    rw [hreturn hend]
    exact List.mem_cons_self

end LineTable

/-- **Lines partition the text.** There is one line more than line feeds. The first line begins at 0 and each other one behind
a byte of a line feed, later lines at later offsets, always between two characters. No line shows a line feed. From the
beginning of a line to that of the next, or to the end, the text is what the line shows and its ending, which takes up a
carriage return if there is one; all of these slices together are the text. Exactly the numbers of lines have an answer. -/
theorem lines_partition (text : List Char) :
    let table := LineTable.ofText text
    table.size = 1 + text.count '\n' ∧
    table.lines.map Line.start = 0 :: feedEnds 0 (utf8Bytes text) ∧
    table.lineStart? 0 = some 0 ∧
    (∀ m n a b, m < n → table.lineStart? m = some a → table.lineStart? n = some b → a < b) ∧
    (∀ n start, table.lineStart? n = some start → onBoundary start text = true) ∧
    (∀ n < table.size, ∃ shown ending, table.lineText? n = some shown ∧ table.slice? n = some (shown ++ ending) ∧
      '\n' ∉ shown ∧ (n + 1 < table.size → ending = ['\n'] ∨ ending = ['\r', '\n']) ∧
      (n + 1 = table.size → ending = [] ∨ ending = ['\r']) ∧ (shown.getLast? = some '\r' → '\r' ∈ ending)) ∧
    ((List.range table.size).filterMap table.slice?).flatten = text ∧
    (∀ n, table.lineText? n = none ↔ table.size ≤ n) ∧ (∀ n, table.lineStart? n = none ↔ table.size ≤ n) := by
  intro table
  refine ⟨length_linesFrom 0 text, map_start_linesFrom 0 text, LineTable.lineStart?_zero text, ?_, ?_, ?_,
    LineTable.flatten_slices text, fun n => LineTable.lineText?_eq_none_iff, fun n => LineTable.lineStart?_eq_none_iff⟩
  · intro m n a b hmn ha hb
    exact LineTable.lineStart?_lt hmn ha hb
  · intro n start hstart
    exact LineTable.onBoundary_lineStart? hstart
  · intro n hn
    exact LineTable.slice?_ending hn

/-- two carriage returns before a line feed, an empty line, and a carriage return at the end behind a character of four bytes -/
def mixedEndings : List Char := "é\r\r\n\n😀\r".toList

/-- Of the two carriage returns the line shows one. -/
theorem mixed_endings_partition :
    let table := LineTable.ofText mixedEndings
    (table.lineStart? 1 = some 5 ∧ table.lineStart? 2 = some 6 ∧ onBoundary 6 mixedEndings = true) ∧
    (table.lineText? 0 = some ['é', '\r'] ∧ table.slice? 0 = some ['é', '\r', '\r', '\n']) ∧
    (table.lineText? 2 = some ['😀'] ∧ ∃ ending, table.slice? 2 = some ('😀' :: ending) ∧ (ending = [] ∨ ending = ['\r'])) := by
  obtain ⟨-, -, -, -, hboundary, hslices, -⟩ := lines_partition mixedEndings
  have hlast : (LineTable.ofText mixedEndings).lineText? 2 = some ['😀'] := by decide +kernel
  have hsize : (LineTable.ofText mixedEndings).size = 3 := by decide +kernel
  have hthird : (LineTable.ofText mixedEndings).lineStart? 2 = some 6 := by decide +kernel
  refine ⟨⟨by decide +kernel, hthird, hboundary 2 6 hthird⟩, ⟨by decide +kernel, by decide +kernel⟩, hlast, ?_⟩
  obtain ⟨shown, ending, hshown, hslice, -, -, hend, -⟩ := hslices 2 (by rw [hsize]; decide)
  obtain rfl := Option.some.inj (hlast.symm.trans hshown)
  exact ⟨ending, hslice, hend hsize.symm⟩

end WorkflowLint
