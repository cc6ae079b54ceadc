/-
The pattern of a key, and that the scan of a line finds what the pattern finds.

A pattern can match the front of a text in several ways. `Pattern.ways` lists them in the order in which they are tried: an
earlier alternative before a later one, a greedy run as long as possible first, a lazy one as short as possible first, and the
earlier choice deciding before the later one. The first way counts. `keyPattern` is, in this form,
`^(?:"([^"]*)"|'([^']*)'|([^\s#'"\[\]{},][^#]*?))[ \t]*:(?:[ \t]|$)`, and `patternKey` the key it gives.

`Pattern.attempt` is the first way that what comes after a pattern accepts, with one equation for each kind of pattern. A greedy
run that none of its own characters may follow can only be taken as a whole (`attempt_greedy`); this settles quoted keys and
padding. A lazy run ends at the first place where the rest can follow, and so does the scan (`findSome?_splits_lazy`). Hence the
two find the same key at the front of every text: `patternKey_eq`.
-/
import WorkflowLint.Layout.Row

namespace WorkflowLint

open WorkflowLint.Text

/-! ## Patterns -/

namespace Text

/-- a pattern of characters, with numbered groups -/
inductive Pattern where
  /-- one character of a class -/
  | one (allowed : Char → Bool)
  /-- characters of a class, as many as possible or as few as possible -/
  | run (greedy : Bool) (allowed : Char → Bool)
  /-- the end of the text -/
  | stop
  /-- a part of the text that is remembered under a number -/
  | group (number : Nat) (inner : Pattern)
  /-- one after the other -/
  | next (first second : Pattern)
  /-- the first, or the second if that fails -/
  | either (first second : Pattern)

namespace Pattern

/-- what a group took, and what stands before that -/
structure Capture where
  number : Nat
  before : List Char
  text : List Char
deriving DecidableEq, Repr

/-- how far a text is read, and what the groups took -/
structure State where
  read : List Char
  rest : List Char
  captures : List Capture
deriving DecidableEq, Repr

/-- the state after more was read -/
def State.take (state : State) (taken left : List Char) : State :=
  ⟨state.read ++ taken, left, state.captures⟩

/-- the state after a group that was entered when `before` was read -/
def State.capture (number : Nat) (before : List Char) (state : State) : State :=
  ⟨state.read, state.rest, state.captures ++ [⟨number, before, state.read.drop before.length⟩]⟩

/-- the ways to cut a text behind characters of a class, in the order in which they are tried -/
def splits (greedy : Bool) (allowed : Char → Bool) : List Char → List (List Char × List Char)
  | [] => [([], [])]
  | c :: rest =>
    let more := if allowed c then (splits greedy allowed rest).map fun cut => (c :: cut.1, cut.2) else []
    if greedy then more ++ [([], c :: rest)] else ([], c :: rest) :: more

/-- the ways to match a pattern, in the order in which they are tried -/
def ways : Pattern → State → List State
  | one allowed, state =>
    match state.rest with
    | [] => []
    | c :: rest => if allowed c then [state.take [c] rest] else []
  | run greedy allowed, state => (splits greedy allowed state.rest).map fun cut => state.take cut.1 cut.2
  | stop, state => if state.rest.isEmpty then [state] else []
  | group number inner, state => (inner.ways state).map (State.capture number state.read)
  | next first second, state => (first.ways state).flatMap second.ways
  | either first second, state => first.ways state ++ second.ways state

/-- what the groups take where the pattern matches the front of a text -/
def captures? (pattern : Pattern) (text : List Char) : Option (List Capture) :=
  (pattern.ways ⟨[], text, []⟩).head?.map State.captures

/-- what `accept` says of the first way that it accepts -/
def attempt {α : Type} (pattern : Pattern) (accept : State → Option α) (state : State) : Option α :=
  (pattern.ways state).findSome? accept

section

variable {α : Type} (accept : State → Option α) (state : State)

theorem captures?_eq_attempt (pattern : Pattern) (text : List Char) :
    pattern.captures? text = pattern.attempt (fun state => some state.captures) ⟨[], text, []⟩ := by
  rw [captures?, attempt]
  cases pattern.ways ⟨[], text, []⟩ with
  | nil => rfl
  | cons state states => rfl

theorem attempt_next (first second : Pattern) :
    (next first second).attempt accept state = first.attempt (second.attempt accept) state := by
  show ((first.ways state).flatMap second.ways).findSome? accept =
    (first.ways state).findSome? fun after => (second.ways after).findSome? accept
  rw [← List.head?_filterMap, List.filterMap_flatMap, List.head?_flatMap]
  simp only [List.head?_filterMap]

theorem attempt_either (first second : Pattern) :
    (either first second).attempt accept state = (first.attempt accept state).or (second.attempt accept state) :=
  List.findSome?_append

theorem attempt_group (number : Nat) (inner : Pattern) :
    (group number inner).attempt accept state = inner.attempt (fun after => accept (after.capture number state.read)) state :=
  List.findSome?_map

@[simp] theorem attempt_one_nil (allowed : Char → Bool) (read : List Char) (captures : List Capture) :
    (one allowed).attempt accept ⟨read, [], captures⟩ = none :=
  rfl

@[simp] theorem attempt_one_cons (allowed : Char → Bool) (read : List Char) (c : Char) (rest : List Char)
    (captures : List Capture) : (one allowed).attempt accept ⟨read, c :: rest, captures⟩ =
      if allowed c then accept ⟨read ++ [c], rest, captures⟩ else none := by
  rw [attempt, ways]
  cases hc : allowed c with
  | true => simp [State.take, hc]
  | false => simp [hc]

theorem attempt_stop : stop.attempt accept state = if state.rest.isEmpty then accept state else none := by
  rw [attempt, ways]
  split
  · simp
  · rfl

theorem findSome?_splits_greedy {allowed : Char → Bool} {accept : List Char × List Char → Option α} (text : List Char)
    (h : ∀ taken c rest, allowed c = true → accept (taken, c :: rest) = none) :
    (splits true allowed text).findSome? accept = accept (text.takeWhile allowed, text.dropWhile allowed) := by
  induction text generalizing accept with
  | nil => simp [splits]
  | cons c text ih =>
    cases hc : allowed c with
    | true =>
      -- to stop before `c` is tried last, and `c` cannot follow
      have hstop : accept ([], c :: text) = none := h [] c text hc
      have hmore := @ih (fun cut => accept (c :: cut.1, cut.2)) fun taken d rest hd => h (c :: taken) d rest hd
      simp [splits, hc, List.findSome?_append, List.findSome?_map, Function.comp_def, hmore, hstop]
    | false => simp [splits, hc]

/-- A greedy run that none of its characters may follow is taken as a whole. -/
theorem attempt_greedy {allowed : Char → Bool}
    (h : ∀ taken c rest, allowed c = true → accept (state.take taken (c :: rest)) = none) :
    (run true allowed).attempt accept state =
      accept (state.take (state.rest.takeWhile allowed) (state.rest.dropWhile allowed)) := by
  rw [attempt, ways, List.findSome?_map]
  exact @findSome?_splits_greedy α allowed (accept ∘ fun cut => state.take cut.1 cut.2) state.rest h

end

end Pattern

end Text

namespace Layout

/-! ## The pattern of a key -/

/-- a key in quotes, without the quote in it -/
def quotedPattern (number : Nat) (quote : Char) : Pattern :=
  .next (.one (· == quote)) (.next (.group number (.run true (· != quote))) (.one (· == quote)))

/-- a plain key, as short as what follows allows -/
def plainPattern (number : Nat) : Pattern :=
  .group number (.next (.one startsPlain) (.run false (· != '#')))

/-- padding, a colon, and then a space, a tab or the end -/
def colonPattern : Pattern :=
  .next (.run true isIndent) (.next (.one (· == ':')) (.either (.one isIndent) .stop))

/-- a key at the front of a line -/
def keyPattern : Pattern :=
  .next (.either (quotedPattern 1 '"') (.either (quotedPattern 2 '\'') (plainPattern 3))) colonPattern

/-- what a group with the given number took -/
def captured (number : Nat) (captures : List Pattern.Capture) : Option Pattern.Capture :=
  captures.find? fun capture => capture.number == number

/-- the key that the pattern finds at the front of a text that begins at byte `base` -/
def patternKey (base : Nat) (text : List Char) : Option KeySpan :=
  (keyPattern.captures? text).bind fun captures =>
    ((captured 1 captures).or ((captured 2 captures).or (captured 3 captures))).map fun capture =>
      let start := base + utf8Length capture.before
      ⟨trimEnd capture.text, start, start + utf8Length (trimEnd capture.text)⟩

/-- the captures, if what is left to read ends a key -/
def capturesAtColon (state : Pattern.State) : Option (List Pattern.Capture) :=
  if atColon state.rest then some state.captures else none

theorem isIndent_iff {c : Char} : isIndent c = true ↔ c = ' ' ∨ c = '\t' := by
  simp [isIndent]

theorem attempt_colonPattern (state : Pattern.State) :
    colonPattern.attempt (fun after => some after.captures) state = capturesAtColon state := by
  rw [colonPattern, Pattern.attempt_next, Pattern.attempt_greedy]
  · rw [Pattern.State.take, Pattern.attempt_next]
    cases hdrop : state.rest.dropWhile isIndent with
    | nil => simp [capturesAtColon, atColon, hdrop]
    | cons c rest =>
      by_cases hc : c = ':'
      · cases rest with
        | nil => simp [capturesAtColon, atColon, hdrop, hc, Pattern.attempt_either, Pattern.attempt_stop]
        | cons d rest => simp [capturesAtColon, atColon, hdrop, hc, Pattern.attempt_either, Pattern.attempt_stop]
      · simp [capturesAtColon, atColon, hdrop, hc]
  · -- no padding is a colon
    intro taken c rest hc
    have hcolon : (c == ':') = false := by rcases isIndent_iff.1 hc with rfl | rfl <;> rfl
    rw [Pattern.State.take, Pattern.attempt_next, Pattern.attempt_one_cons, hcolon]
    rfl

theorem attempt_quotedPattern (number : Nat) (quote c : Char) (rest : List Char) :
    (quotedPattern number quote).attempt capturesAtColon ⟨[], c :: rest, []⟩ =
      if c = quote then (quotedRun quote rest).map fun run => [⟨number, [quote], run⟩] else none := by
  rw [quotedPattern, Pattern.attempt_next, Pattern.attempt_one_cons]
  by_cases hc : c = quote
  · subst hc
    rw [if_pos (beq_self_eq_true c), if_pos rfl, Pattern.attempt_next, Pattern.attempt_group, Pattern.attempt_greedy]
    · have hhead := List.head?_dropWhile_not (· != c) rest
      cases hdrop : rest.dropWhile (· != c) with
      | nil => simp [Pattern.State.take, Pattern.State.capture, quotedRun, hdrop]
      | cons d after =>
        rw [hdrop] at hhead
        obtain rfl : d = c := by simpa using hhead
        cases hcolon : atColon after with
        | true => simp [Pattern.State.take, Pattern.State.capture, quotedRun, hdrop, capturesAtColon, hcolon]
        | false => simp [Pattern.State.take, Pattern.State.capture, quotedRun, hdrop, capturesAtColon, hcolon]
    · -- what the run may hold is no quote
      intro taken d after hd
      have hquote : (d == c) = false := by simpa using hd
      rw [Pattern.State.take, Pattern.State.capture, Pattern.attempt_one_cons, hquote]
      rfl
  · have hquote : (c == quote) = false := by simpa using hc
    rw [hquote, if_neg hc]
    rfl

theorem findSome?_splits_lazy {α : Type} (f : List Char → α) (text : List Char) :
    ((Pattern.splits false (· != '#') text).findSome? fun cut => if atColon cut.2 then some (f cut.1) else none) =
      (plainRun text).map f := by
  induction text generalizing f with
  | nil => rfl
  | cons c text ih =>
    have hmore := ih fun run => f (c :: run)
    rw [Pattern.splits, plainRun]
    cases hcolon : atColon (c :: text) with
    | true => simp [hcolon]
    | false =>
      by_cases hc : c = '#'
      · subst hc
        simp [hcolon]
      · simp [hcolon, hc, List.findSome?_map, Function.comp_def, hmore]

theorem attempt_plainPattern (number : Nat) (c : Char) (rest : List Char) :
    (plainPattern number).attempt capturesAtColon ⟨[], c :: rest, []⟩ =
      if startsPlain c then (plainRun rest).map fun run => [⟨number, [], c :: run⟩] else none := by
  rw [plainPattern, Pattern.attempt_group, Pattern.attempt_next, Pattern.attempt_one_cons]
  split
  · rw [← findSome?_splits_lazy, Pattern.attempt, Pattern.ways, List.findSome?_map]
    simp [Pattern.State.take, Pattern.State.capture, Function.comp_def, capturesAtColon]
  · rfl

theorem captures?_keyPattern (c : Char) (rest : List Char) :
    keyPattern.captures? (c :: rest) =
      (if c = '"' then (quotedRun '"' rest).map fun run => [⟨1, ['"'], run⟩] else none).or
        ((if c = '\'' then (quotedRun '\'' rest).map fun run => [⟨2, ['\''], run⟩] else none).or
          (if startsPlain c then (plainRun rest).map fun run => [⟨3, [], c :: run⟩] else none)) := by
  have haccept : colonPattern.attempt (fun after => some after.captures) = capturesAtColon := funext attempt_colonPattern
  rw [Pattern.captures?_eq_attempt, keyPattern, Pattern.attempt_next, haccept, Pattern.attempt_either, Pattern.attempt_either,
    attempt_quotedPattern, attempt_quotedPattern, attempt_plainPattern]

/-- **The scan finds the key that the pattern finds.** -/
theorem patternKey_eq (base : Nat) (text : List Char) :
    patternKey base text = (keyAt text).map fun found =>
      ⟨trimEnd found.2, base + found.1, base + found.1 + utf8Length (trimEnd found.2)⟩ := by
  have hmark : utf8Length ['"'] = 1 ∧ utf8Length ['\''] = 1 := by decide
  cases text with
  | nil => rfl
  | cons c rest =>
    rw [patternKey, captures?_keyPattern]
    by_cases hquote : c = '"' ∨ c = '\''
    · have hplain : startsPlain c = false := by rcases hquote with rfl | rfl <;> decide
      cases hrun : quotedRun c rest with
      | none => rcases hquote with rfl | rfl <;> simp [keyAt, hrun, hplain]
      | some run => rcases hquote with rfl | rfl <;> simp [keyAt, hrun, captured, hmark]
    obtain ⟨hdouble, hsingle⟩ := not_or.1 hquote
    cases hstart : startsPlain c with
    | false => simp [keyAt, hdouble, hsingle, hstart]
    | true =>
      cases hrun : plainRun rest with
      | none => simp [keyAt, hdouble, hsingle, hstart, hrun]
      | some run => simp [keyAt, hdouble, hsingle, hstart, hrun, captured, utf8Length]

end Layout

end WorkflowLint
