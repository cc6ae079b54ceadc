/-
The line of an entry in a block mapping, and the row that stands for it.

A key is made of letters, digits, underscores, points and dashes. `Head` is the line of an entry: a key, written plain or in
quotes, a colon, maybe a value behind it, maybe a carriage return. `ofLine_head` says that the row of such a line declares the
key, whatever the value is; the searches for the end of a key cannot end too early, since no character of a key is a colon, a
quote or a `#`. `headerRange_headRow` says that the range of the row is that of the key in the document.
-/
import WorkflowLint.Proofs.Rows

namespace WorkflowLint

open WorkflowLint.Text

namespace Layout

/-! ## Keys -/

/-- what a key may consist of behind its first character -/
def isKeyChar (c : Char) : Bool :=
  continuesWord c || c == '.' || c == '-'

/-- a letter, a digit or an underscore, and then more of them, points and dashes -/
def IsKeyName (name : List Char) : Prop :=
  ∃ c rest, name = c :: rest ∧ continuesWord c = true ∧ ∀ d ∈ rest, isKeyChar d = true

instance (name : List Char) : Decidable (IsKeyName name) :=
  match name with
  | [] => isFalse fun ⟨_, _, h, _⟩ => nomatch h
  | c :: rest =>
    decidable_of_iff (continuesWord c = true ∧ rest.all isKeyChar = true)
      ⟨fun h => ⟨c, rest, rfl, h.1, List.all_eq_true.1 h.2⟩, fun ⟨_, _, h, hfirst, hrest⟩ => by
        obtain ⟨rfl, rfl⟩ := List.cons.inj h
        exact ⟨hfirst, List.all_eq_true.2 hrest⟩⟩

/-- how a key is written -/
inductive Quoting where
  | plain
  | single
  | double
deriving DecidableEq, Repr

/-- what stands before a key and after it -/
def Quoting.mark : Quoting → List Char
  | plain => []
  | single => ['\'']
  | double => ['"']

/-- the line of an entry: its key, the value on the same line if there is one, and maybe a carriage return at the end -/
structure Head where
  name : String
  quoting : Quoting
  value : Option (List Char)
  carriage : Bool
  name_key : IsKeyName name.toList
  value_line : ∀ text, value = some text → '\n' ∉ text

namespace Head

/-- what stands behind the colon but for a carriage return -/
def tail (head : Head) : List Char :=
  match head.value with
  | none => []
  | some text => ' ' :: text

def ending (head : Head) : List Char :=
  if head.carriage then ['\r'] else []

/-- the line without its indentation -/
def written (head : Head) : List Char :=
  head.quoting.mark ++ head.name.toList ++ head.quoting.mark ++ ':' :: (head.tail ++ head.ending)

def line (indent : Nat) (head : Head) : List Char :=
  List.replicate indent ' ' ++ head.written

/-- the range of the key, on the line with the number `n` -/
def range (n indent : Nat) (head : Head) : Range :=
  let column := indent + head.quoting.mark.length
  ⟨⟨n, column⟩, ⟨n, column + head.name.toList.length⟩⟩

end Head

/-! ## Characters of keys -/

theorem isKeyChar_of_continuesWord {c : Char} (h : continuesWord c = true) : isKeyChar c = true := by
  simp [isKeyChar, h]

theorem IsKeyName.isKeyChar {name : List Char} (h : IsKeyName name) {c : Char} (hc : c ∈ name) : isKeyChar c = true := by
  obtain ⟨first, rest, rfl, hfirst, hrest⟩ := h
  rcases List.mem_cons.1 hc with rfl | hc
  · exact isKeyChar_of_continuesWord hfirst
  · exact hrest c hc

theorem ne_of_isKeyChar {c d : Char} (h : isKeyChar c = true) (hd : isKeyChar d = false) : c ≠ d := by
  rintro rfl
  rw [h] at hd
  exact Bool.noConfusion hd

theorem IsKeyName.not_mem {name : List Char} (h : IsKeyName name) {d : Char} (hd : Layout.isKeyChar d = false) :
    d ∉ name :=
  fun hm => ne_of_isKeyChar (h.isKeyChar hm) hd rfl

theorem toNat_between {first last c : Char} (h : first ≤ c ∧ c ≤ last) :
    first.toNat ≤ c.toNat ∧ c.toNat ≤ last.toNat :=
  ⟨UInt32.le_iff_toNat_le.1 h.1, UInt32.le_iff_toNat_le.1 h.2⟩

/-- The characters of keys are between the dash and the last letter. -/
theorem isKeyChar_bounds {c : Char} (h : isKeyChar c = true) : 0x2D ≤ c.toNat ∧ c.toNat ≤ 0x7A := by
  simp only [isKeyChar, continuesWord, isLetter, isDigit, Bool.or_eq_true, Bool.and_eq_true, decide_eq_true_eq,
    beq_iff_eq] at h
  have hinside : ∀ first last : Char, 0x2D ≤ first.toNat → last.toNat ≤ 0x7A → first ≤ c ∧ c ≤ last →
      0x2D ≤ c.toNat ∧ c.toNat ≤ 0x7A := by
    intro first last hfirst hlast hc
    have hbetween := toNat_between hc
    exact ⟨Nat.le_trans hfirst hbetween.1, Nat.le_trans hbetween.2 hlast⟩
  rcases h with ((((h | h) | h) | rfl) | rfl) | rfl
  · exact hinside 'a' 'z' (by decide) (by decide) h
  · exact hinside 'A' 'Z' (by decide) (by decide) h
  · exact hinside '0' '9' (by decide) (by decide) h
  · decide
  · decide
  · decide

theorem isBlank_of_isKeyChar {c : Char} (h : isKeyChar c = true) : isBlank c = false := by
  have := isKeyChar_bounds h
  simp [isBlank]
  omega

theorem isIndent_of_not_isBlank {c : Char} (h : isBlank c = false) : isIndent c = false := by
  cases hc : isIndent c with
  | false => rfl
  | true => exact absurd (h.symm.trans (isBlank_of_isIndent hc)) Bool.false_ne_true

theorem utf8Size_of_isKeyChar {c : Char} (h : isKeyChar c = true) : c.utf8Size = 1 := by
  have hbound := isKeyChar_bounds h
  refine if_pos ?_
  rw [UInt32.le_iff_toNat_le]
  exact Nat.le_trans hbound.2 (by decide)

theorem utf16Size_of_isKeyChar {c : Char} (h : isKeyChar c = true) : utf16Size c = 1 := by
  have hbound := isKeyChar_bounds h
  exact if_pos (by omega)

/-- Keys are as long in bytes and in columns as they have characters. -/
theorem IsKeyName.lengths {name : List Char} (h : IsKeyName name) :
    utf8Length name = name.length ∧ utf16Length name = name.length := by
  have hall : ∀ c ∈ name, Layout.isKeyChar c = true := fun c hc => h.isKeyChar hc
  clear h
  induction name with
  | nil => exact ⟨rfl, rfl⟩
  | cons c name ih =>
    have hc := hall c List.mem_cons_self
    have hrest := ih fun d hd => hall d (List.mem_cons_of_mem _ hd)
    rw [utf8Length, utf16Length, utf8Size_of_isKeyChar hc, utf16Size_of_isKeyChar hc, hrest.1, hrest.2, List.length_cons]
    omega

theorem IsKeyName.trimEnd {name : List Char} (h : IsKeyName name) : trimEnd name = name :=
  trimEnd_eq_self fun _ hc => isBlank_of_isKeyChar (h.isKeyChar (List.mem_of_getLast? hc))

/-! ## The row of an entry -/

theorem atColon_of_isKeyChar {c : Char} (rest : List Char) (h : isKeyChar c = true) : atColon (c :: rest) = false := by
  have hindent : isIndent c = false := isIndent_of_not_isBlank (isBlank_of_isKeyChar h)
  have hcolon : c ≠ ':' := ne_of_isKeyChar h (by decide)
  rw [atColon, List.dropWhile_cons_of_neg (by rw [hindent]; decide)]
  split
  case h_1 heq => exact absurd (List.cons.inj heq).1 hcolon
  case h_2 heq => exact absurd (List.cons.inj heq).1 hcolon
  case h_3 => rfl

theorem plainRun_append {name rest : List Char} (hname : ∀ c ∈ name, isKeyChar c = true)
    (hcolon : atColon (':' :: rest) = true) : plainRun (name ++ ':' :: rest) = some name := by
  induction name with
  | nil => rw [List.nil_append, plainRun, if_pos hcolon]
  | cons c name ih =>
    have hc := hname c List.mem_cons_self
    have hrest := ih fun d hd => hname d (List.mem_cons_of_mem _ hd)
    rw [List.cons_append, plainRun, atColon_of_isKeyChar _ hc, hrest, if_neg (ne_of_isKeyChar hc (by decide))]
    rfl

theorem quotedRun_append {quote : Char} {name rest : List Char} (hname : quote ∉ name)
    (hcolon : atColon (':' :: rest) = true) : quotedRun quote (name ++ quote :: ':' :: rest) = some name := by
  have hall : ∀ c ∈ name, (c != quote) = true := by
    intro c hc
    simp only [bne_iff_ne]
    rintro rfl
    exact hname hc
  have hdrop : (name ++ quote :: ':' :: rest).dropWhile (· != quote) = quote :: ':' :: rest := by
    rw [List.dropWhile_append_of_pos hall, List.dropWhile_cons_of_neg (by simp)]
  have htake : (name ++ quote :: ':' :: rest).takeWhile (· != quote) = name := by
    rw [List.takeWhile_append_of_pos hall, List.takeWhile_cons_of_neg (by simp), List.append_nil]
  rw [quotedRun, hdrop]
  simp [hcolon, htake]

theorem startsPlain_of_continuesWord {c : Char} (h : continuesWord c = true) : startsPlain c = true := by
  have hkey := isKeyChar_of_continuesWord h
  have hnone : (['#', '\'', '"', '[', ']', '{', '}', ','].all fun d => !isKeyChar d) = true := by decide
  have hnot : c ∉ ['#', '\'', '"', '[', ']', '{', '}', ','] := by
    intro hmem
    have := List.all_eq_true.1 hnone c hmem
    rw [hkey] at this
    exact Bool.noConfusion this
  simpa [startsPlain, isBlank_of_isKeyChar hkey] using hnot

/-- However it is written, a key is found at the front of its line. -/
theorem keyAt_written (quoting : Quoting) {name rest : List Char} (hname : IsKeyName name)
    (hcolon : atColon (':' :: rest) = true) :
    keyAt (quoting.mark ++ name ++ quoting.mark ++ ':' :: rest) = some (quoting.mark.length, name) := by
  cases quoting with
  | single =>
    have hrun := quotedRun_append (hname.not_mem (d := '\'') (by decide)) hcolon
    simp [Quoting.mark, keyAt, hrun]
  | double =>
    have hrun := quotedRun_append (hname.not_mem (d := '"') (by decide)) hcolon
    simp [Quoting.mark, keyAt, hrun]
  | plain =>
    obtain ⟨c, more, rfl, hc, hmore⟩ := hname
    have hkey := isKeyChar_of_continuesWord hc
    have hrun := plainRun_append hmore hcolon
    have hquotes : ¬ (c = '"' ∨ c = '\'') := by
      rintro (h | h)
      · exact ne_of_isKeyChar hkey (by decide) h
      · exact ne_of_isKeyChar hkey (by decide) h
    simp [Quoting.mark, keyAt, hquotes, startsPlain_of_continuesWord hc, hrun]

theorem written_first (quoting : Quoting) {name : List Char} (rest : List Char) (hname : IsKeyName name) :
    ∃ c more, quoting.mark ++ name ++ quoting.mark ++ ':' :: rest = c :: more ∧ isBlank c = false ∧ c ≠ '#' ∧ c ≠ '-' := by
  cases quoting with
  | single => exact ⟨'\'', _, rfl, by decide, by decide, by decide⟩
  | double => exact ⟨'"', _, rfl, by decide, by decide, by decide⟩
  | plain =>
    obtain ⟨c, more, rfl, hc, -⟩ := hname
    have hkey := isKeyChar_of_continuesWord hc
    refine ⟨c, _, rfl, isBlank_of_isKeyChar hkey, ne_of_isKeyChar hkey (by decide), ?_⟩
    rintro rfl
    exact absurd hc (by decide)

theorem Head.atColon_tail (head : Head) : atColon (':' :: head.tail) = true := by
  unfold Head.tail
  cases head.value with
  | none => rfl
  | some text => rfl

/-- Also a value that ends in a carriage return stands behind a space. -/
theorem Head.atColon_of_tail_eq {head : Head} {front : List Char} (h : head.tail = front ++ ['\r']) :
    atColon (':' :: front) = true := by
  unfold Head.tail at h
  cases hv : head.value with
  | none => simp [hv] at h
  | some text =>
    rw [hv] at h
    cases front with
    | nil => simp at h
    | cons c front =>
      obtain ⟨rfl, -⟩ := List.cons.inj h
      rfl

/-- The line of an entry without a carriage return at its end is still the line of an entry. -/
theorem Head.text_line (start indent : Nat) (head : Head) :
    ∃ rest, (⟨start, head.line indent⟩ : Line).text = List.replicate indent ' ' ++
      (head.quoting.mark ++ head.name.toList ++ head.quoting.mark ++ ':' :: rest) ∧ atColon (':' :: rest) = true := by
  have hline : head.line indent = List.replicate indent ' ' ++
      (head.quoting.mark ++ head.name.toList ++ head.quoting.mark ++ [':']) ++ head.tail ++ head.ending := by
    simp [Head.line, Head.written]
  cases hc : head.carriage with
  | true =>
    rw [hline, Head.ending, if_pos hc, Line.text_append_return]
    exact ⟨head.tail, by simp, head.atColon_tail⟩
  | false =>
    rw [Head.ending, hc, if_neg Bool.false_ne_true, List.append_nil] at hline
    have heq := Line.text_eq ⟨start, head.line indent⟩
    generalize (⟨start, head.line indent⟩ : Line).text = shown at heq ⊢
    rcases heq with h | h
    · exact ⟨head.tail, by rw [← h, hline]; simp, head.atColon_tail⟩
    -- the value ends in a carriage return of its own
    · replace h := hline.symm.trans h
      rcases List.eq_nil_or_concat head.tail with hnil | ⟨front, last, hlast⟩
      · rw [hnil, List.append_nil, ← List.append_assoc] at h
        have := (List.append_inj' h rfl).2
        simp at this
      · rw [List.concat_eq_append] at hlast
        rw [hlast, ← List.append_assoc] at h
        obtain ⟨hshown, hcr⟩ := List.append_inj' h rfl
        obtain rfl : last = '\r' := by simpa using hcr
        exact ⟨front, by rw [← hshown]; simp, Head.atColon_of_tail_eq hlast⟩

/-- The row of an entry has the indentation of the entry and declares its key, at the bytes where the key stands. -/
theorem ofLine_head (n start indent : Nat) (head : Head) :
    Row.ofLine n ⟨start, head.line indent⟩ = ⟨n, indent, false, some ⟨head.name.toList,
      start + indent + head.quoting.mark.length,
      start + indent + head.quoting.mark.length + head.name.toList.length⟩⟩ := by
  obtain ⟨rest, htext, hcolon⟩ := head.text_line start indent
  obtain ⟨c, more, hwritten, hblank, hhash, hdash⟩ := written_first head.quoting rest head.name_key
  have hindent : isIndent c = false := isIndent_of_not_isBlank hblank
  have hspaces : ∀ d ∈ List.replicate indent ' ', isIndent d = true := by
    intro d hd
    rw [List.eq_of_mem_replicate hd]
    rfl
  have htake : (List.replicate indent ' ' ++ c :: more).takeWhile isIndent = List.replicate indent ' ' := by
    rw [List.takeWhile_append_of_pos hspaces, List.takeWhile_cons_of_neg (by rw [hindent]; decide), List.append_nil]
  have hdrop : (List.replicate indent ' ' ++ c :: more).dropWhile isIndent = c :: more := by
    rw [List.dropWhile_append_of_pos hspaces, List.dropWhile_cons_of_neg (by rw [hindent]; decide)]
  have htrivial : isTrivial (c :: more) = false := by
    rw [Bool.eq_false_iff, ne_eq, isTrivial_iff]
    intro ht
    exact hhash (ht c (by rw [trimStart, List.dropWhile_cons_of_neg (by rw [hblank]; decide)]; rfl))
  have hitem : isItem (c :: more) = false := by
    unfold isItem
    split
    case h_1 heq => exact absurd (List.cons.inj heq).1 hdash
    case h_2 heq => exact absurd (List.cons.inj heq).1 hdash
    case h_3 => rfl
  have hkey := keyAt_written head.quoting head.name_key hcolon
  rw [hwritten] at htext hkey
  rw [Row.ofLine, htext, htake, hdrop]
  simp [htrivial, hitem, hkey, head.name_key.trimEnd, head.name_key.lengths.1]

theorem declares_ofLine_head (n start indent : Nat) (head : Head) (name : String) :
    (Row.ofLine n ⟨start, head.line indent⟩).declares name = decide (head.name = name) := by
  rw [ofLine_head]
  show (head.name.toList == name.toList) = _
  rw [beq_eq_decide]
  simp only [String.toList_inj]

theorem Quoting.not_mem_mark (quoting : Quoting) : '\n' ∉ quoting.mark := by
  cases quoting <;> decide

namespace Head

theorem not_mem_line (indent : Nat) (head : Head) : '\n' ∉ head.line indent := by
  have hname : '\n' ∉ head.name.toList := head.name_key.not_mem (by decide)
  have htail : '\n' ∉ head.tail := by
    unfold tail
    cases hv : head.value with
    | none => exact List.not_mem_nil
    | some text => simpa using head.value_line text hv
  have hending : '\n' ∉ head.ending := by
    unfold ending
    split <;> simp
  simp [line, written, hname, head.quoting.not_mem_mark, htail, hending, List.mem_replicate]

theorem indentOf_line (indent : Nat) (head : Head) : indentOf (head.line indent) = indent := by
  rw [← ofLine_indent 0 ⟨0, head.line indent⟩, ofLine_head]

end Head

/-! ## The range of a key -/

/-- the row of an entry's line, with the lines `above` before it -/
def headRow (above : List (List Char)) (column : Nat) (head : Head) : Row :=
  Row.ofLine above.length ⟨utf8Length (closedLines above), head.line column⟩

theorem utf8Length_replicate_space (n : Nat) : utf8Length (List.replicate n ' ') = n := by
  induction n with
  | zero => rfl
  | succ n ih =>
    rw [List.replicate_succ, utf8Length, ih, Nat.add_comm]
    rfl

theorem utf16Length_replicate_space (n : Nat) : utf16Length (List.replicate n ' ') = n := by
  induction n with
  | zero => rfl
  | succ n ih =>
    rw [List.replicate_succ, utf16Length, ih, Nat.add_comm]
    rfl

theorem Quoting.mark_lengths (quoting : Quoting) :
    utf8Length quoting.mark = quoting.mark.length ∧ utf16Length quoting.mark = quoting.mark.length := by
  cases quoting <;> decide

/-- The text up to a key on its line: where it ends, in bytes and as a position. -/
theorem Head.before_key (above : List (List Char)) (column : Nat) (head : Head) (habove : ∀ line ∈ above, '\n' ∉ line) :
    let front := closedLines above ++ (List.replicate column ' ' ++ head.quoting.mark)
    utf8Length front = utf8Length (closedLines above) + column + head.quoting.mark.length ∧
      Position.zero.advanceAll front = ⟨above.length, column + head.quoting.mark.length⟩ := by
  intro front
  have hpadding : '\n' ∉ List.replicate column ' ' ++ head.quoting.mark := by
    simp [head.quoting.not_mem_mark, List.mem_replicate]
  constructor
  · rw [utf8Length_append, utf8Length_append, utf8Length_replicate_space, head.quoting.mark_lengths.1, Nat.add_assoc]
  · rw [Position.advanceAll_append, Position.zero, Position.advanceAll_closedLines 0 habove,
      Position.advanceAll_of_not_mem _ hpadding, utf16Length_append, utf16Length_replicate_space,
      head.quoting.mark_lengths.2, Nat.zero_add, Nat.zero_add]

/-- The header of a block that begins with an entry is the entry's key. -/
theorem headerRange_headRow {above : List (List Char)} {column : Nat} {head : Head} {rest : List (List Char)}
    (habove : ∀ line ∈ above, '\n' ∉ line) (body : List Row) :
    (Layout.ofText (joinLines (above ++ head.line column :: rest))).headerRange ⟨headRow above column head, body⟩ =
      head.range above.length column := by
  obtain ⟨more, hmore⟩ := joinLines_cons (head.line column) rest
  obtain ⟨hbytes, hposition⟩ := head.before_key above column habove
  have hlengths := head.name_key.lengths
  generalize hfront : closedLines above ++ (List.replicate column ' ' ++ head.quoting.mark) = front at hbytes hposition
  have htext : joinLines (above ++ head.line column :: rest) =
      front ++ (head.name.toList ++ (head.quoting.mark ++ ':' :: (head.tail ++ head.ending) ++ more)) := by
    rw [joinLines_append, hmore, ← hfront]
    simp [Head.line, Head.written]
  have hstart := LineTable.position_append front (head.name.toList ++ (head.quoting.mark ++ ':' :: (head.tail ++ head.ending) ++ more))
  have hstop := LineTable.position_append (front ++ head.name.toList) (head.quoting.mark ++ ':' :: (head.tail ++ head.ending) ++ more)
  rw [hbytes, ← htext] at hstart
  rw [utf8Length_append, hbytes, hlengths.1, List.append_assoc, ← htext] at hstop
  simp only [headRow, ofLine_head, headerRange, headerVia, Layout.ofText, LineTable.range]
  rw [hstart, hstop, Position.advanceAll_append, Range.between_advanceAll, hposition,
    Position.advanceAll_of_not_mem _ (head.name_key.not_mem (by decide)), hlengths.2]
  rfl

end Layout

end WorkflowLint
