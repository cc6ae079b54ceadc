/-
What is written as JSON is read back.

The reader is one for any text in JSON: white space may stand between any two parts, all escapes may stand in a string, and
numbers with a fraction or an exponent are one and the same to it, as they are among the values. Its `fuel` bounds how much of a
value it goes into; `read?` gives it the length of the text, and a value is never larger than its text (`size_le_length`).

Results:
- `readChars_escaped`: a string ends at the quote that closes it, and has the characters that were written.
- `reads_all`: values are read back from their texts, and lists and objects from their first part on, by induction on the fuel.
- `read?_render`: so the text of a value is read as the value.
-/
import Mathlib.Data.List.TakeWhile
import WorkflowLint.Json

namespace WorkflowLint.Json

/-! ## A reader -/

def isSpace (c : Char) : Bool :=
  c == ' ' || c == '\n' || c == '\r' || c == '\t'

/-- a text without the white space at its front -/
def skip (text : List Char) : List Char :=
  text.dropWhile isSpace

def hexValue? (c : Char) : Option Nat :=
  (List.range 16).find? fun n => Nat.digitChar n == c.toLower

/-- the escapes of one letter, and what they stand for -/
def escapes : List (Char × Char) :=
  [('"', '"'), ('\\', '\\'), ('/', '/'), ('n', '\n'), ('r', '\r'), ('t', '\t'), ('b', '\x08'), ('f', '\x0c')]

/-- the characters of a string up to the quote that closes it, and what comes after that -/
def readChars : List Char → Option (List Char × List Char)
  | [] => none
  | '"' :: rest => some ([], rest)
  | '\\' :: 'u' :: a :: b :: c :: d :: rest => do
    let code := (((← hexValue? a) * 16 + (← hexValue? b)) * 16 + (← hexValue? c)) * 16 + (← hexValue? d)
    let (chars, after) ← readChars rest
    return (Char.ofNat code :: chars, after)
  | '\\' :: e :: rest => do
    let c ← escapes.lookup e
    let (chars, after) ← readChars rest
    return (c :: chars, after)
  | c :: rest =>
    if c.toNat < 0x20 then none
    else do
      let (chars, after) ← readChars rest
      return (c :: chars, after)

def isNumeralChar (c : Char) : Bool :=
  c.isDigit || ['-', '+', '.', 'e', 'E'].contains c

/-- the whole number that is written by digits -/
def digits? (digits : List Char) : Option Nat :=
  if digits ≠ [] ∧ digits.all Char.isDigit then some (Nat.ofDigitChars 10 digits 0) else none

/-- the number that a numeral stands for; what is written with a point or an exponent counts as a fraction -/
def number? (numeral : List Char) : Option Json :=
  if numeral.any fun c => ['.', 'e', 'E'].contains c then some fraction
  else
    match numeral with
    | '-' :: digits => (digits? digits).map fun n : Nat => int (-n)
    | digits => (digits? digits).map fun n : Nat => int n

/-- the value that is a single word -/
def readWord : List Char → Option (Json × List Char)
  | 'n' :: 'u' :: 'l' :: 'l' :: rest => some (null, rest)
  | 't' :: 'r' :: 'u' :: 'e' :: rest => some (bool true, rest)
  | 'f' :: 'a' :: 'l' :: 's' :: 'e' :: rest => some (bool false, rest)
  | _ => none

/-- what comes after a character that has to come first -/
def expect (c : Char) : List Char → Option (List Char)
  | [] => none
  | d :: rest => if d = c then some rest else none

mutual

/-- the value at the front of a text, and what comes after it -/
def readValue : Nat → List Char → Option (Json × List Char)
  | 0, _ => none
  | _, [] => none
  | fuel + 1, c :: rest =>
    if c = '"' then do
      let (chars, after) ← readChars rest
      return (str (String.ofList chars), after)
    else if c = '[' then
      match expect ']' (skip rest) with
      | some after => some (arr [], after)
      | none => do
        let (items, after) ← readItems fuel (skip rest)
        return (arr items, after)
    else if c = '\x7b' then
      match expect '\x7d' (skip rest) with
      | some after => some (obj [], after)
      | none => do
        let (fields, after) ← readFields fuel (skip rest)
        return (obj fields, after)
    else if isNumeralChar c then do
      let n ← number? ((c :: rest).takeWhile isNumeralChar)
      return (n, (c :: rest).dropWhile isNumeralChar)
    else readWord (c :: rest)
termination_by structural fuel => fuel

/-- the items at the front of a text up to the bracket that closes their list, and what comes after that -/
def readItems : Nat → List Char → Option (List Json × List Char)
  | 0, _ => none
  | fuel + 1, text => do
    let (item, rest) ← readValue fuel text
    match expect ',' (skip rest) with
    | some more =>
      let (items, after) ← readItems fuel (skip more)
      return (item :: items, after)
    | none =>
      let after ← expect ']' (skip rest)
      return ([item], after)
termination_by structural fuel => fuel

/-- the fields at the front of a text up to the brace that closes their object, and what comes after that -/
def readFields : Nat → List Char → Option (List (String × Json) × List Char)
  | 0, _ => none
  | fuel + 1, text => do
    let (key, keyed) ← readChars (← expect '"' text)
    let (value, rest) ← readValue fuel (skip (← expect ':' (skip keyed)))
    match expect ',' (skip rest) with
    | some more =>
      let (fields, after) ← readFields fuel (skip more)
      return ((String.ofList key, value) :: fields, after)
    | none =>
      let after ← expect '\x7d' (skip rest)
      return ([(String.ofList key, value)], after)
termination_by structural fuel => fuel

end

/-- the value of a text that holds one value -/
def read? (text : String) : Option Json := do
  let (json, after) ← readValue text.length (skip text.toList)
  if (skip after).isEmpty then some json else none

/-! ## White space -/

theorem skip_cons {c : Char} (rest : List Char) (h : isSpace c = false) : skip (c :: rest) = c :: rest := by
  rw [skip, List.dropWhile_cons_of_neg (by simp [h])]

theorem skip_newLine (depth : Nat) (rest : List Char) : skip ((newLine depth).toList ++ rest) = skip rest := by
  apply List.dropWhile_append_of_pos
  intro c hc
  simp only [newLine, String.toList_append, String.toList_ofList, List.mem_append, List.mem_replicate] at hc
  rcases hc with hc | ⟨-, rfl⟩
  · rw [List.mem_singleton.1 hc]
    rfl
  · rfl

/-! ## Strings -/

theorem hexValue?_hexDigit {n : Nat} (h : n < 16) : hexValue? (hexDigit n) = some n := by
  have hall : ∀ n < 16, hexValue? (hexDigit n) = some n := by decide +kernel
  exact hall n h

/-- A character is written as an escape of one letter, by its code, or as it is. -/
theorem escapeChar_cases (c : Char) :
    (∃ e, e ≠ 'u' ∧ escapes.lookup e = some c ∧ escapeChar c = ['\\', e]) ∨
    (c.toNat < 0x20 ∧ escapeChar c = ['\\', 'u', '0', '0', hexDigit (c.toNat / 16), hexDigit (c.toNat % 16)]) ∨
    (c ≠ '"' ∧ c ≠ '\\' ∧ 0x20 ≤ c.toNat ∧ escapeChar c = [c]) := by
  unfold escapeChar
  by_cases hquote : c = '"'
  · exact Or.inl ⟨'"', by decide, by rw [hquote]; rfl, if_pos hquote⟩
  by_cases hslash : c = '\\'
  · exact Or.inl ⟨'\\', by decide, by rw [hslash]; rfl, by simp only [hslash]; rfl⟩
  by_cases hfeed : c = '\n'
  · exact Or.inl ⟨'n', by decide, by rw [hfeed]; rfl, by simp only [hfeed]; rfl⟩
  by_cases hreturn : c = '\r'
  · exact Or.inl ⟨'r', by decide, by rw [hreturn]; rfl, by simp only [hreturn]; rfl⟩
  by_cases htab : c = '\t'
  · exact Or.inl ⟨'t', by decide, by rw [htab]; rfl, by simp only [htab]; rfl⟩
  by_cases hback : c = '\x08'
  · exact Or.inl ⟨'b', by decide, by rw [hback]; rfl, by simp only [hback]; rfl⟩
  by_cases hform : c = '\x0c'
  · exact Or.inl ⟨'f', by decide, by rw [hform]; rfl, by simp only [hform]; rfl⟩
  by_cases hcontrol : c.toNat < 0x20
  · exact Or.inr (Or.inl ⟨hcontrol, by simp [hquote, hslash, hfeed, hreturn, htab, hback, hform, hcontrol]⟩)
  · exact Or.inr (Or.inr ⟨hquote, hslash, Nat.le_of_not_lt hcontrol,
      by simp [hquote, hslash, hfeed, hreturn, htab, hback, hform, hcontrol]⟩)

theorem readChars_escapeChar (c : Char) {rest chars after : List Char} (h : readChars rest = some (chars, after)) :
    readChars (escapeChar c ++ rest) = some (c :: chars, after) := by
  rcases escapeChar_cases c with ⟨e, hu, he, hc⟩ | ⟨hcontrol, hc⟩ | ⟨hquote, hslash, hplain, hc⟩
  · rw [hc]
    show readChars ('\\' :: e :: rest) = _
    rw [readChars, he, h]
    · rfl
    · rintro _ _ _ _ _ rfl
      exact absurd rfl hu
  · have hcode : ((0 * 16 + 0) * 16 + c.toNat / 16) * 16 + c.toNat % 16 = c.toNat := by omega
    have hzero : hexValue? '0' = some 0 := hexValue?_hexDigit (by decide : 0 < 16)
    rw [hc]
    show readChars ('\\' :: 'u' :: '0' :: '0' :: hexDigit (c.toNat / 16) :: hexDigit (c.toNat % 16) :: rest) = _
    rw [readChars, hzero, hexValue?_hexDigit (by omega), hexValue?_hexDigit (by omega), h]
    show some (Char.ofNat (((0 * 16 + 0) * 16 + c.toNat / 16) * 16 + c.toNat % 16) :: chars, after) = _
    rw [hcode, Char.ofNat_toNat]
  · rw [hc]
    show readChars (c :: rest) = _
    rw [readChars, if_neg (Nat.not_lt_of_le hplain), h]
    · rfl
    · exact hquote
    · exact fun _ _ _ _ _ hc _ => hslash hc
    · exact fun _ _ hc _ => hslash hc

/-- A string ends at the quote that closes it. -/
theorem readChars_escaped (chars rest : List Char) :
    readChars (chars.flatMap escapeChar ++ '"' :: rest) = some (chars, rest) := by
  induction chars with
  | nil => exact readChars.eq_2 rest
  | cons c chars ih =>
    rw [List.flatMap_cons, List.append_assoc]
    exact readChars_escapeChar c ih

theorem toList_quote (s : String) : (quote s).toList = '"' :: (s.toList.flatMap escapeChar ++ ['"']) := by
  simp [quote]

/-! ## Numbers -/

/-- no numeral goes on in the text -/
def EndsNumeral (text : List Char) : Prop :=
  ∀ c ∈ text.head?, isNumeralChar c = false

theorem isDigit_of_mem_toDigits {n : Nat} {c : Char} (h : c ∈ Nat.toDigits 10 n) : c.isDigit = true :=
  Nat.isDigit_of_mem_toDigits (by decide) (by decide) h

theorem digits?_toDigits (n : Nat) : digits? (Nat.toDigits 10 n) = some n := by
  have hdigits : (Nat.toDigits 10 n).all Char.isDigit = true := List.all_eq_true.2 fun _ hc => isDigit_of_mem_toDigits hc
  rw [digits?, if_pos ⟨Nat.toDigits_ne_nil, hdigits⟩, Nat.ofDigitChars_ten_toDigits]

/-- A digit is no sign, no point and no mark of an exponent. -/
theorem isDigit_excludes {c : Char} (h : c.isDigit = true) : c ≠ '-' ∧ ['.', 'e', 'E'].contains c = false := by
  have hne : ∀ d, d.isDigit = false → c ≠ d := by
    rintro d hd rfl
    rw [h] at hd
    cases hd
  have hmarks : c ∉ ['.', 'e', 'E'] := by
    simp only [List.mem_cons, List.not_mem_nil, or_false, not_or]
    exact ⟨hne '.' (by decide), hne 'e' (by decide), hne 'E' (by decide)⟩
  exact ⟨hne '-' (by decide), by simpa using hmarks⟩

theorem not_any_mark_toDigits (n : Nat) : ((Nat.toDigits 10 n).any fun c => ['.', 'e', 'E'].contains c) = false := by
  rw [List.any_eq_false]
  intro c hc
  rw [(isDigit_excludes (isDigit_of_mem_toDigits hc)).2]
  exact Bool.false_ne_true

theorem toList_toString_ofNat (m : Nat) : (toString (Int.ofNat m)).toList = Nat.toDigits 10 m :=
  Nat.toList_repr

theorem toList_toString_negSucc (m : Nat) : (toString (Int.negSucc m)).toList = '-' :: Nat.toDigits 10 (m + 1) := by
  show ("-" ++ (m + 1).repr).toList = _
  rw [String.toList_append, Nat.toList_repr]
  rfl

theorem toList_toString_ne_nil (n : Int) : (toString n).toList ≠ [] := by
  cases n with
  | ofNat m =>
    rw [toList_toString_ofNat]
    exact Nat.toDigits_ne_nil
  | negSucc m =>
    rw [toList_toString_negSucc]
    exact List.cons_ne_nil _ _

theorem number?_toString (n : Int) : number? (toString n).toList = some (int n) := by
  cases n with
  | ofNat m =>
    rw [toList_toString_ofNat, number?, not_any_mark_toDigits]
    · rw [digits?_toDigits]
      rfl
    · intro digits hdigits
      have hminus : '-' ∈ Nat.toDigits 10 m := by simp [hdigits]
      exact (isDigit_excludes (isDigit_of_mem_toDigits hminus)).1 rfl
  | negSucc m =>
    rw [toList_toString_negSucc, number?, List.any_cons, not_any_mark_toDigits]
    show (digits? (Nat.toDigits 10 (m + 1))).map (fun n : Nat => int (-n)) = _
    rw [digits?_toDigits]
    rfl

theorem isNumeralChar_of_mem_toDigits {n : Nat} {c : Char} (h : c ∈ Nat.toDigits 10 n) : isNumeralChar c = true := by
  rw [isNumeralChar, isDigit_of_mem_toDigits h]
  rfl

theorem isNumeralChar_of_mem_toString {n : Int} {c : Char} (h : c ∈ (toString n).toList) : isNumeralChar c = true := by
  cases n with
  | ofNat m =>
    rw [toList_toString_ofNat] at h
    exact isNumeralChar_of_mem_toDigits h
  | negSucc m =>
    rw [toList_toString_negSucc] at h
    rcases List.mem_cons.1 h with rfl | h
    · rfl
    · exact isNumeralChar_of_mem_toDigits h

theorem ne_of_isNumeralChar {c d : Char} (hc : isNumeralChar c = true) (hd : isNumeralChar d = false) : c ≠ d := by
  rintro rfl
  rw [hc] at hd
  cases hd

theorem isSpace_of_isNumeralChar {c : Char} (h : isNumeralChar c = true) : isSpace c = false := by
  have hblank : ∀ d, isNumeralChar d = false → (c == d) = false := fun d hd => beq_eq_false_iff_ne.2 (ne_of_isNumeralChar h hd)
  rw [isSpace, hblank ' ' (by decide), hblank '\n' (by decide), hblank '\r' (by decide), hblank '\t' (by decide)]
  rfl

/-- A numeral is read up to where it ends. -/
theorem readValue_numeral {fuel : Nat} {numeral rest : List Char} {json : Json} (hne : numeral ≠ [])
    (hall : ∀ c ∈ numeral, isNumeralChar c = true) (hnumber : number? numeral = some json) (hrest : EndsNumeral rest) :
    readValue (fuel + 1) (numeral ++ rest) = some (json, rest) := by
  have hstop : rest.takeWhile isNumeralChar = [] ∧ rest.dropWhile isNumeralChar = rest := by
    cases rest with
    | nil => exact ⟨rfl, rfl⟩
    | cons c rest =>
      have hc := hrest c rfl
      exact ⟨List.takeWhile_cons_of_neg (by simp [hc]), List.dropWhile_cons_of_neg (by simp [hc])⟩
  have htake : (numeral ++ rest).takeWhile isNumeralChar = numeral := by
    rw [List.takeWhile_append_of_pos hall, hstop.1, List.append_nil]
  have hdrop : (numeral ++ rest).dropWhile isNumeralChar = rest := by
    rw [List.dropWhile_append_of_pos hall, hstop.2]
  cases numeral with
  | nil => exact absurd rfl hne
  | cons c numeral =>
    have hc := hall c List.mem_cons_self
    rw [List.cons_append] at htake hdrop ⊢
    rw [readValue, if_neg (ne_of_isNumeralChar hc (by decide)), if_neg (ne_of_isNumeralChar hc (by decide)),
      if_neg (ne_of_isNumeralChar hc (by decide)), if_pos hc, htake, hdrop, hnumber]
    rfl

/-! ## Values -/

mutual

/-- how many parts a value has -/
def size : Json → Nat
  | arr items => sizeItems items + 1
  | obj fields => sizeFields fields + 1
  | _ => 1

def sizeItems : List Json → Nat
  | [] => 0
  | item :: items => size item + sizeItems items + 1

def sizeFields : List (String × Json) → Nat
  | [] => 0
  | (_, value) :: fields => size value + sizeFields fields + 1

end

theorem size_pos (json : Json) : 0 < size json := by
  cases json with
  | null | bool | int | fraction | str => exact Nat.one_pos
  | arr | obj => exact Nat.succ_pos _

section

variable (depth : Nat)

theorem toList_render_null : (render depth null).toList = ['n', 'u', 'l', 'l'] := by
  show "null".toList = _
  rfl

theorem toList_render_true : (render depth (bool true)).toList = ['t', 'r', 'u', 'e'] := by
  show "true".toList = _
  rfl

theorem toList_render_false : (render depth (bool false)).toList = ['f', 'a', 'l', 's', 'e'] := by
  show "false".toList = _
  rfl

theorem toList_render_fraction : (render depth fraction).toList = ['0', '.', '0'] := by
  show "0.0".toList = _
  rfl

theorem toList_render_int (n : Int) : (render depth (int n)).toList = (toString n).toList :=
  rfl

theorem toList_render_str (s : String) : (render depth (str s)).toList = '"' :: (s.toList.flatMap escapeChar ++ ['"']) :=
  toList_quote s

theorem toList_render_arr_nil : (render depth (arr [])).toList = ['[', ']'] := by
  show "[]".toList = _
  rfl

theorem toList_render_obj_nil : (render depth (obj [])).toList = ['\x7b', '\x7d'] := by
  show "\x7b\x7d".toList = _
  rfl

/-- the text of a list from the given item up to the bracket that closes it -/
def itemsText (outer : Nat) (item : Json) (items : List Json) : List Char :=
  (render (outer + 1) item).toList ++ ((renderItems (outer + 1) items).toList ++ ((newLine outer).toList ++ [']']))

/-- the text of an object from the given field up to the brace that closes it -/
def fieldsText (outer : Nat) (key : String) (value : Json) (fields : List (String × Json)) : List Char :=
  '"' :: (key.toList.flatMap escapeChar ++ '"' :: ':' :: ' ' :: ((render (outer + 1) value).toList ++
    ((renderFields (outer + 1) fields).toList ++ ((newLine outer).toList ++ ['\x7d']))))

theorem toList_render_arr (item : Json) (items : List Json) :
    (render depth (arr (item :: items))).toList = '[' :: ((newLine (depth + 1)).toList ++ itemsText depth item items) := by
  simp [render, itemsText]

theorem toList_render_obj (key : String) (value : Json) (fields : List (String × Json)) :
    (render depth (obj ((key, value) :: fields))).toList =
      '\x7b' :: ((newLine (depth + 1)).toList ++ fieldsText depth key value fields) := by
  simp [render, fieldsText, toList_quote]

/-- Behind an item, a list goes on or ends. -/
theorem items_after (items : List Json) :
    (renderItems (depth + 1) items).toList ++ ((newLine depth).toList ++ [']']) =
      match items with
      | [] => (newLine depth).toList ++ [']']
      | item :: items => ',' :: ((newLine (depth + 1)).toList ++ itemsText depth item items) := by
  cases items with
  | nil => simp [renderItems]
  | cons item items => simp [renderItems, itemsText]

/-- Behind a field, an object goes on or ends. -/
theorem fields_after (fields : List (String × Json)) :
    (renderFields (depth + 1) fields).toList ++ ((newLine depth).toList ++ ['\x7d']) =
      match fields with
      | [] => (newLine depth).toList ++ ['\x7d']
      | (key, value) :: fields => ',' :: ((newLine (depth + 1)).toList ++ fieldsText depth key value fields) := by
  cases fields with
  | nil => simp [renderFields]
  | cons field fields => simp [renderFields, fieldsText, toList_quote]

end

/-- The text of a value begins with no white space, and not as the end of a list does. -/
theorem render_front (depth : Nat) (json : Json) :
    ∃ c tail, (render depth json).toList = c :: tail ∧ isSpace c = false ∧ c ≠ ']' := by
  cases json with
  | null => exact ⟨_, _, toList_render_null depth, rfl, by decide⟩
  | bool b =>
    cases b with
    | true => exact ⟨_, _, toList_render_true depth, rfl, by decide⟩
    | false => exact ⟨_, _, toList_render_false depth, rfl, by decide⟩
  | int n =>
    cases htext : (toString n).toList with
    | nil => exact absurd htext (toList_toString_ne_nil n)
    | cons c tail =>
      have hc : isNumeralChar c = true := isNumeralChar_of_mem_toString (by rw [htext]; exact List.mem_cons_self)
      exact ⟨c, tail, by rw [toList_render_int, htext], isSpace_of_isNumeralChar hc, ne_of_isNumeralChar hc (by decide)⟩
  | fraction => exact ⟨_, _, toList_render_fraction depth, rfl, by decide⟩
  | str s => exact ⟨_, _, toList_render_str depth s, rfl, by decide⟩
  | arr items =>
    cases items with
    | nil => exact ⟨_, _, toList_render_arr_nil depth, rfl, by decide⟩
    | cons item items => exact ⟨_, _, toList_render_arr depth item items, rfl, by decide⟩
  | obj fields =>
    cases fields with
    | nil => exact ⟨_, _, toList_render_obj_nil depth, rfl, by decide⟩
    | cons field fields => exact ⟨_, _, toList_render_obj depth field.1 field.2 fields, rfl, by decide⟩

/-! ## Reading back -/

/-- with this much fuel, values are read back -/
def ReadsValues (fuel : Nat) : Prop :=
  ∀ json depth rest, size json ≤ fuel → EndsNumeral rest →
    readValue fuel ((render depth json).toList ++ rest) = some (json, rest)

/-- with this much fuel, lists are read back from their first item on -/
def ReadsItems (fuel : Nat) : Prop :=
  ∀ item items depth rest, sizeItems (item :: items) ≤ fuel →
    readItems fuel (itemsText depth item items ++ rest) = some (item :: items, rest)

/-- with this much fuel, objects are read back from their first field on -/
def ReadsFields (fuel : Nat) : Prop :=
  ∀ key value fields depth rest, sizeFields ((key, value) :: fields) ≤ fuel →
    readFields fuel (fieldsText depth key value fields ++ rest) = some ((key, value) :: fields, rest)

theorem endsNumeral_newLine (depth : Nat) (rest : List Char) : EndsNumeral ((newLine depth).toList ++ rest) := by
  intro c hc
  obtain rfl : '\n' = c := by simpa [newLine] using hc
  rfl

theorem endsNumeral_comma (rest : List Char) : EndsNumeral (',' :: rest) := by
  rintro c ⟨⟩
  rfl

theorem skip_itemsText (depth : Nat) (item : Json) (items : List Json) (rest : List Char) :
    skip ((newLine (depth + 1)).toList ++ itemsText depth item items ++ rest) = itemsText depth item items ++ rest := by
  obtain ⟨c, tail, hfront, hspace, -⟩ := render_front (depth + 1) item
  rw [List.append_assoc, skip_newLine, itemsText, hfront]
  exact skip_cons _ hspace

theorem skip_fieldsText (depth : Nat) (key : String) (value : Json) (fields : List (String × Json)) (rest : List Char) :
    skip ((newLine (depth + 1)).toList ++ fieldsText depth key value fields ++ rest) =
      fieldsText depth key value fields ++ rest := by
  rw [List.append_assoc, skip_newLine]
  exact skip_cons _ rfl

theorem expect_cons (c : Char) (rest : List Char) : expect c (c :: rest) = some rest :=
  if_pos rfl

theorem expect_cons_of_ne {c d : Char} (rest : List Char) (h : d ≠ c) : expect c (d :: rest) = none :=
  if_neg h

theorem readsValues_succ {fuel : Nat} (hitems : ReadsItems fuel) (hfields : ReadsFields fuel) : ReadsValues (fuel + 1) := by
  intro json depth rest hsize hrest
  cases json with
  | null =>
    rw [toList_render_null]
    rfl
  | bool b =>
    cases b with
    | true =>
      rw [toList_render_true]
      rfl
    | false =>
      rw [toList_render_false]
      rfl
  | int n =>
    rw [toList_render_int]
    exact readValue_numeral (toList_toString_ne_nil n) (fun _ => isNumeralChar_of_mem_toString) (number?_toString n) hrest
  | fraction =>
    have hall : ['0', '.', '0'].all isNumeralChar = true := rfl
    rw [toList_render_fraction]
    exact readValue_numeral (List.cons_ne_nil _ _) (List.all_eq_true.1 hall) rfl hrest
  | str s =>
    rw [toList_render_str, List.cons_append, List.append_assoc, List.singleton_append, readValue, if_pos rfl,
      readChars_escaped]
    show some (str (String.ofList s.toList), rest) = _
    rw [String.ofList_toList]
  | arr items =>
    cases items with
    | nil =>
      rw [toList_render_arr_nil]
      rfl
    | cons item items =>
      obtain ⟨c, tail, hfront, -, hopen⟩ := render_front (depth + 1) item
      have hbracket : expect ']' (itemsText depth item items ++ rest) = none := by
        rw [itemsText, hfront]
        exact expect_cons_of_ne _ hopen
      rw [toList_render_arr, List.cons_append, readValue, if_neg (by decide), if_pos rfl, skip_itemsText, hbracket,
        hitems item items depth rest (Nat.le_of_succ_le_succ hsize)]
      rfl
  | obj fields =>
    cases fields with
    | nil =>
      rw [toList_render_obj_nil]
      rfl
    | cons field fields =>
      have hbrace : expect '\x7d' (fieldsText depth field.1 field.2 fields ++ rest) = none :=
        expect_cons_of_ne _ (by decide)
      rw [toList_render_obj, List.cons_append, readValue, if_neg (by decide), if_neg (by decide), if_pos rfl,
        skip_fieldsText, hbrace, hfields field.1 field.2 fields depth rest (Nat.le_of_succ_le_succ hsize)]
      rfl

theorem readsItems_succ {fuel : Nat} (hvalue : ReadsValues fuel) (hitems : ReadsItems fuel) : ReadsItems (fuel + 1) := by
  intro item items depth rest hsize
  have hlimits : size item ≤ fuel ∧ sizeItems items ≤ fuel := by
    rw [sizeItems] at hsize
    omega
  rw [itemsText, items_after, List.append_assoc, readItems]
  cases items with
  | nil =>
    have hbracket : skip ((newLine depth).toList ++ ([']'] ++ rest)) = ']' :: rest := skip_newLine depth (']' :: rest)
    rw [List.append_assoc, hvalue item (depth + 1) _ hlimits.1 (endsNumeral_newLine _ _)]
    simp only [Option.bind_eq_bind, Option.bind_some, hbracket, expect_cons_of_ne rest (by decide : ']' ≠ ','), expect_cons]
    rfl
  | cons next items =>
    have hmore := hitems next items depth rest hlimits.2
    dsimp only
    rw [List.cons_append, hvalue item (depth + 1) _ hlimits.1 (endsNumeral_comma _)]
    simp only [Option.bind_eq_bind, Option.bind_some, skip_cons _ (by rfl : isSpace ',' = false), expect_cons, skip_itemsText,
      hmore]
    rfl

theorem readsFields_succ {fuel : Nat} (hvalue : ReadsValues fuel) (hfields : ReadsFields fuel) : ReadsFields (fuel + 1) := by
  intro key value fields depth rest hsize
  have hlimits : size value ≤ fuel ∧ sizeFields fields ≤ fuel := by
    rw [sizeFields] at hsize
    omega
  obtain ⟨c, tail, hfront, hspace, -⟩ := render_front (depth + 1) value
  have hcolon : ∀ more, skip (' ' :: ((render (depth + 1) value).toList ++ more)) =
      (render (depth + 1) value).toList ++ more := by
    intro more
    rw [hfront]
    exact skip_cons _ hspace
  rw [fieldsText, fields_after, List.cons_append, List.append_assoc, List.cons_append, readFields]
  simp only [Option.bind_eq_bind, Option.bind_some, expect_cons, readChars_escaped, List.cons_append, List.append_assoc,
    skip_cons _ (by rfl : isSpace ':' = false), hcolon]
  cases fields with
  | nil =>
    have hbrace : skip ((newLine depth).toList ++ (['\x7d'] ++ rest)) = '\x7d' :: rest :=
      skip_newLine depth ('\x7d' :: rest)
    dsimp only
    rw [List.append_assoc, hvalue value (depth + 1) _ hlimits.1 (endsNumeral_newLine _ _)]
    simp only [Option.bind_some, hbrace, expect_cons_of_ne rest (by decide : '\x7d' ≠ ','), expect_cons, String.ofList_toList]
    rfl
  | cons next fields =>
    have hmore := hfields next.1 next.2 fields depth rest hlimits.2
    dsimp only
    rw [List.cons_append, hvalue value (depth + 1) _ hlimits.1 (endsNumeral_comma _)]
    simp only [Option.bind_some, skip_cons _ (by rfl : isSpace ',' = false), expect_cons, skip_fieldsText, hmore,
      String.ofList_toList]
    rfl

/-- **Texts are read back**, as long as the fuel lasts. The reader spends one unit on each step into a value. -/
theorem reads_all (fuel : Nat) : ReadsValues fuel ∧ ReadsItems fuel ∧ ReadsFields fuel := by
  induction fuel with
  | zero =>
    refine ⟨?_, ?_, ?_⟩
    · intro json depth rest hsize
      exact absurd (size_pos json) (by omega)
    · intro item items depth rest hsize
      rw [sizeItems] at hsize
      omega
    · intro key value fields depth rest hsize
      rw [sizeFields] at hsize
      omega
  | succ fuel ih =>
    obtain ⟨hvalue, hitems, hfields⟩ := ih
    exact ⟨readsValues_succ hitems hfields, readsItems_succ hvalue hitems, readsFields_succ hvalue hfields⟩

mutual

/-- Each part of a value has at least one character of its text. -/
theorem size_le_length (depth : Nat) : ∀ json, size json ≤ (render depth json).toList.length
  | null => by simp [toList_render_null, size]
  | bool true => by simp [toList_render_true, size]
  | bool false => by simp [toList_render_false, size]
  | int n => by
    rw [toList_render_int]
    exact List.length_pos_iff.2 (toList_toString_ne_nil n)
  | fraction => by simp [toList_render_fraction, size]
  | str s => by simp [toList_render_str, size]
  | arr [] => by simp [toList_render_arr_nil, size, sizeItems]
  | arr (item :: items) => by
    have hitem := size_le_length (depth + 1) item
    have hitems := sizeItems_le_length (depth + 1) items
    simp only [toList_render_arr, itemsText, size, sizeItems, List.length_cons, List.length_append]
    omega
  | obj [] => by simp [toList_render_obj_nil, size, sizeFields]
  | obj ((key, value) :: fields) => by
    have hvalue := size_le_length (depth + 1) value
    have hfields := sizeFields_le_length (depth + 1) fields
    simp only [toList_render_obj, fieldsText, size, sizeFields, List.length_cons, List.length_append]
    omega

theorem sizeItems_le_length (depth : Nat) : ∀ items, sizeItems items ≤ (renderItems depth items).toList.length
  | [] => Nat.zero_le _
  | item :: items => by
    have hitem := size_le_length depth item
    have hitems := sizeItems_le_length depth items
    simp only [renderItems, sizeItems, String.toList_append, List.length_append]
    have hcomma : ",".toList.length = 1 := rfl
    omega

theorem sizeFields_le_length (depth : Nat) : ∀ fields, sizeFields fields ≤ (renderFields depth fields).toList.length
  | [] => Nat.zero_le _
  | (key, value) :: fields => by
    have hvalue := size_le_length depth value
    have hfields := sizeFields_le_length depth fields
    simp only [renderFields, sizeFields, String.toList_append, List.length_append]
    have hcomma : ",".toList.length = 1 := rfl
    omega

end

/-- **The text of a value is read as the value**, whatever white space comes after it. -/
theorem read?_render (depth : Nat) (json : Json) {blank : String} (h : ∀ c ∈ blank.toList, isSpace c = true) :
    read? (render depth json ++ blank) = some json := by
  have hblank : EndsNumeral blank.toList ∧ skip blank.toList = [] := by
    refine ⟨fun c hc => ?_, List.dropWhile_eq_nil_iff.2 h⟩
    by_contra hnumeral
    have hspace := isSpace_of_isNumeralChar (by simpa using hnumeral)
    rw [h c (List.mem_of_mem_head? hc)] at hspace
    cases hspace
  have hfuel : size json ≤ (render depth json ++ blank).length := by
    have hsize := size_le_length depth json
    rw [← String.length_toList, String.toList_append, List.length_append]
    omega
  obtain ⟨c, tail, hfront, hspace, -⟩ := render_front depth json
  have hskip : skip ((render depth json).toList ++ blank.toList) = (render depth json).toList ++ blank.toList := by
    rw [hfront]
    exact skip_cons _ hspace
  rw [read?, String.toList_append, hskip, (reads_all _).1 json depth _ hfuel hblank.1]
  show (if (skip blank.toList).isEmpty = true then some json else none) = some json
  rw [hblank.2]
  rfl

end WorkflowLint.Json
