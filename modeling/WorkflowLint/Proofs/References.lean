/-
References are what a search from left to right finds.

`Captures pattern text names` describes such a search: where the pattern matches at the front, its capture is taken and the
search goes on behind the match; where it does not, the search moves on by one character. So no two matches overlap.
`VariableMatch` and `TaskMatch` are the patterns `$.name` and `task('name')`, spelled out.

`variableNames` and `taskReferences` look at every character instead, also at those inside a match. They find the same,
because no reference can begin inside another one: `captures_variableNames_iff` and `captures_taskReferences_iff`.
-/
import Mathlib.Data.List.TakeWhile
import WorkflowLint.Expression.Reference

namespace WorkflowLint.Expression

open WorkflowLint.Text

/-! ## Searching -/

/-- A pattern says of `matched`, with `after` behind it, whether it is a match and which part of it is captured. -/
abbrev Pattern := (matched capture after : List Char) → Prop

/-- what a search from left to right captures in a text -/
inductive Captures (pattern : Pattern) : List Char → List (List Char) → Prop where
  | done : Captures pattern [] []
  | pass {c : Char} {rest : List Char} {names : List (List Char)} :
      (∀ matched name after, c :: rest = matched ++ after → ¬ pattern matched name after) →
      Captures pattern rest names → Captures pattern (c :: rest) names
  | take {matched name rest : List Char} {names : List (List Char)} :
      matched ≠ [] → pattern matched name rest → Captures pattern rest names →
      Captures pattern (matched ++ rest) (name :: names)

/-- the pattern has at most one match at the front of a text -/
def Pattern.Functional (pattern : Pattern) : Prop :=
  ∀ matched name after matched' name' after', matched ++ after = matched' ++ after' →
    pattern matched name after → pattern matched' name' after' → matched = matched' ∧ name = name'

/-- A search has one outcome. -/
theorem Captures.unique {pattern : Pattern} (hf : pattern.Functional) {text : List Char} {names names' : List (List Char)}
    (h : Captures pattern text names) (h' : Captures pattern text names') : names = names' := by
  induction h generalizing names' with
  | done =>
    generalize ht : ([] : List Char) = text at h'
    cases h' with
    | done => rfl
    | pass => simp at ht
    | take hne => exact absurd (List.append_eq_nil_iff.1 ht.symm).1 hne
  | @pass c rest names hno _ ih =>
    generalize ht : c :: rest = text at h'
    cases h' with
    | done => simp at ht
    | pass _ hrest =>
      obtain ⟨rfl, rfl⟩ := List.cons.inj ht
      exact ih hrest
    | take _ hm => exact absurd hm (hno _ _ _ ht)
  | @take matched name rest names hne hm _ ih =>
    generalize ht : matched ++ rest = text at h'
    cases h' with
    | done => exact absurd (List.append_eq_nil_iff.1 ht).1 hne
    | pass hno => exact absurd hm (hno _ _ _ ht.symm)
    | take _ hm' hrest =>
      obtain ⟨rfl, rfl⟩ := hf _ _ _ _ _ _ ht hm hm'
      obtain rfl := List.append_cancel_left ht
      rw [ih hrest]

/-- A function that passes over what does not match and goes on behind what does is such a search. -/
theorem captures_of_scan {pattern : Pattern} {scan : List Char → List (List Char)} (hnil : scan [] = [])
    (hpass : ∀ c rest, (∀ matched name after, c :: rest = matched ++ after → ¬ pattern matched name after) →
      scan (c :: rest) = scan rest)
    (htake : ∀ matched name after, pattern matched name after →
      matched ≠ [] ∧ scan (matched ++ after) = name :: scan after) (text : List Char) :
    Captures pattern text (scan text) := by
  -- a match may be long, so the induction is on the length of what is left
  induction hlen : text.length using Nat.strong_induction_on generalizing text with
  | _ n ih =>
    cases text with
    | nil => rw [hnil]; exact .done
    | cons c rest =>
      by_cases hm : ∃ matched name after, c :: rest = matched ++ after ∧ pattern matched name after
      · obtain ⟨matched, name, after, ht, hp⟩ := hm
        obtain ⟨hne, hs⟩ := htake _ _ _ hp
        have hshort : after.length < n := by
          have := List.length_pos_iff.2 hne
          rw [← hlen, ht, List.length_append]; omega
        rw [ht, hs]
        exact .take hne hp (ih _ hshort after rfl)
      · have hno : ∀ matched name after, c :: rest = matched ++ after → ¬ pattern matched name after :=
          fun matched name after ht hp => hm ⟨matched, name, after, ht, hp⟩
        rw [hpass c rest hno]
        exact .pass hno (ih _ (by rw [← hlen]; simp) rest rfl)

/-! ## Variables -/

/-- `$.` and a whole word -/
def VariableMatch : Pattern := fun matched name after =>
  matched = '$' :: '.' :: name ∧
    (∃ c tail, name = c :: tail ∧ startsWord c = true ∧ ∀ d ∈ tail, continuesWord d = true) ∧
    ∀ d, after.head? = some d → continuesWord d = false

theorem variableAt_eq_some_iff {text name : List Char} :
    variableAt text = some name ↔ ∃ after, text = '$' :: '.' :: name ++ after ∧
      VariableMatch ('$' :: '.' :: name) name after := by
  constructor
  · intro h
    unfold variableAt at h
    split at h
    case h_1 c rest =>
      split at h
      case isTrue hc =>
        obtain rfl := Option.some.inj h
        refine ⟨rest.dropWhile continuesWord, ?_, rfl, ⟨c, _, rfl, hc, fun d hd => List.mem_takeWhile_imp hd⟩, ?_⟩
        · rw [List.cons_append, List.cons_append, List.cons_append, List.takeWhile_append_dropWhile]
        · intro d hd
          have := List.head?_dropWhile_not continuesWord rest
          rwa [hd] at this
      case isFalse => simp at h
    case h_2 => simp at h
  · rintro ⟨after, rfl, -, ⟨c, tail, rfl, hc, ht⟩, ha⟩
    have hstop : after.takeWhile continuesWord = [] := by
      cases after with
      | nil => rfl
      | cons d after => simp [ha d rfl]
    show variableAt ('$' :: '.' :: c :: (tail ++ after)) = _
    rw [variableAt, if_pos hc, List.takeWhile_append_of_pos ht, hstop, List.append_nil]

theorem variableAt_eq_none_iff {text : List Char} :
    variableAt text = none ↔ ∀ matched name after, text = matched ++ after → ¬ VariableMatch matched name after := by
  rw [Option.eq_none_iff_forall_ne_some]
  constructor
  · intro h matched name after ht hm
    obtain rfl := hm.1
    exact h name (variableAt_eq_some_iff.2 ⟨after, ht, hm⟩)
  · intro h name hn
    obtain ⟨after, ht, hm⟩ := variableAt_eq_some_iff.1 hn
    exact h _ _ _ ht hm

theorem variableMatch_functional : Pattern.Functional VariableMatch := by
  rintro matched name after matched' name' after' ht hm hm'
  obtain rfl := hm.1
  obtain rfl := hm'.1
  have h : variableAt ('$' :: '.' :: name ++ after) = some name := variableAt_eq_some_iff.2 ⟨after, rfl, hm⟩
  have h' : variableAt ('$' :: '.' :: name ++ after) = some name' := variableAt_eq_some_iff.2 ⟨after', ht, hm'⟩
  obtain rfl : name = name' := Option.some.inj (h.symm.trans h')
  exact ⟨rfl, rfl⟩

theorem variableNames_append_of_not_mem {front : List Char} (after : List Char) (h : '$' ∉ front) :
    variableNames (front ++ after) = variableNames after := by
  induction front with
  | nil => rfl
  | cons c front ih =>
    have hnone : variableAt (c :: (front ++ after)) = none := by
      rw [variableAt_eq_none_iff]
      rintro matched name rest ht ⟨rfl, -, -⟩
      exact h (by simp [(List.cons.inj ht).1])
    rw [List.cons_append, variableNames, hnone]
    exact ih fun hm => h (List.mem_cons_of_mem _ hm)

/-- **Variable references.** Looking at every character finds what the search for `$.name` captures, and nothing else
does. -/
theorem captures_variableNames_iff {text : List Char} {names : List (List Char)} :
    Captures VariableMatch text names ↔ names = variableNames text := by
  have hscan : Captures VariableMatch text (variableNames text) := by
    refine captures_of_scan rfl ?_ ?_ text
    · intro c rest hno
      rw [variableNames, variableAt_eq_none_iff.2 hno]
    · intro matched name after hm
      obtain rfl := hm.1
      have hat : variableAt ('$' :: '.' :: name ++ after) = some name := variableAt_eq_some_iff.2 ⟨after, rfl, hm⟩
      have hinside : '$' ∉ '.' :: name := by
        obtain ⟨-, ⟨c, tail, rfl, hc, ht⟩, -⟩ := hm
        have hd : ∀ d, continuesWord d = true → d ≠ '$' := by
          rintro d hd rfl
          revert hd; decide
        simp only [List.mem_cons, not_or]
        exact ⟨by decide, (hd c (continuesWord_of_startsWord hc)).symm, fun h => hd _ (ht _ h) rfl⟩
      refine ⟨by simp, ?_⟩
      rw [List.cons_append, variableNames, ← List.cons_append, hat]
      exact congrArg _ (variableNames_append_of_not_mem after hinside)
  exact ⟨fun h => h.unique variableMatch_functional hscan, fun h => h ▸ hscan⟩

/-! ## Tasks -/

/-- `task(`, a name between quotes of either kind, and `)` -/
def TaskMatch : Pattern := fun matched name _ =>
  ∃ q q', isQuote q = true ∧ isQuote q' = true ∧ name ≠ [] ∧ (∀ c ∈ name, isTaskNameChar c = true) ∧
    matched = 't' :: 'a' :: 's' :: 'k' :: '(' :: q :: (name ++ [q', ')'])

theorem not_isTaskNameChar_of_isQuote {q : Char} (h : isQuote q = true) : isTaskNameChar q = false := by
  simp only [isQuote, Bool.or_eq_true, beq_iff_eq] at h
  rcases h with rfl | rfl <;> decide

theorem taskAt_eq_some_iff {text name : List Char} :
    taskAt text = some name ↔ ∃ matched after, text = matched ++ after ∧ TaskMatch matched name after := by
  constructor
  · intro h
    unfold taskAt at h
    split at h
    case h_1 q rest =>
      split at h
      case isTrue hq =>
        have hsplit := List.takeWhile_append_dropWhile (p := isTaskNameChar) (l := rest)
        split at h
        case h_1 => simp at h
        case h_2 _ _ q' after hd hne =>
          split at h
          case isTrue hq' =>
            obtain rfl := Option.some.inj h
            rw [hd] at hsplit
            refine ⟨'t' :: 'a' :: 's' :: 'k' :: '(' :: q :: (rest.takeWhile isTaskNameChar ++ [q', ')']), after, ?_, ?_⟩
            · simp [hsplit]
            · exact ⟨q, q', hq, hq', hne, fun c hc => List.mem_takeWhile_imp hc, rfl⟩
          case isFalse => simp at h
        case h_3 => simp at h
      case isFalse => simp at h
    case h_2 => simp at h
  · rintro ⟨matched, after, rfl, q, q', hq, hq', hne, hall, rfl⟩
    have htake : (name ++ q' :: ')' :: after).takeWhile isTaskNameChar = name := by
      rw [List.takeWhile_append_of_pos hall]
      simp [not_isTaskNameChar_of_isQuote hq']
    have hdrop : (name ++ q' :: ')' :: after).dropWhile isTaskNameChar = q' :: ')' :: after := by
      rw [List.dropWhile_append_of_pos hall]
      simp [not_isTaskNameChar_of_isQuote hq']
    have htext : ('t' :: 'a' :: 's' :: 'k' :: '(' :: q :: (name ++ [q', ')'])) ++ after =
        't' :: 'a' :: 's' :: 'k' :: '(' :: q :: (name ++ q' :: ')' :: after) := by simp
    rw [htext, taskAt, if_pos hq, htake, hdrop]
    cases name with
    | nil => exact absurd rfl hne
    | cons c name => simp [hq']

theorem taskAt_eq_none_iff {text : List Char} :
    taskAt text = none ↔ ∀ matched name after, text = matched ++ after → ¬ TaskMatch matched name after := by
  rw [Option.eq_none_iff_forall_ne_some]
  constructor
  · intro h matched name after ht hm
    exact h name (taskAt_eq_some_iff.2 ⟨matched, after, ht, hm⟩)
  · intro h name hn
    obtain ⟨matched, after, ht, hm⟩ := taskAt_eq_some_iff.1 hn
    exact h _ _ _ ht hm

theorem taskMatch_functional : Pattern.Functional TaskMatch := by
  rintro matched name after matched' name' after' ht hm hm'
  have h : taskAt (matched ++ after) = some name := taskAt_eq_some_iff.2 ⟨matched, after, rfl, hm⟩
  have h' : taskAt (matched ++ after) = some name' := taskAt_eq_some_iff.2 ⟨matched', after', ht, hm'⟩
  obtain rfl : name = name' := Option.some.inj (h.symm.trans h')
  refine ⟨?_, rfl⟩
  -- both matches are as long as the name and eight characters more
  obtain ⟨q, q', -, -, -, -, rfl⟩ := hm
  obtain ⟨r, r', -, -, -, -, rfl⟩ := hm'
  exact (List.append_inj ht (by simp)).1

/-- No reference begins inside a quoted name: the parenthesis after `task` is neither part of a name nor a quote. -/
theorem taskAt_quoted {run : List Char} {q : Char} (after : List Char) (hrun : ∀ c ∈ run, isTaskNameChar c = true)
    (hq : isQuote q = true) : taskAt (run ++ q :: after) = none := by
  rw [taskAt_eq_none_iff]
  rintro matched name rest ht ⟨r, r', -, -, -, -, rfl⟩
  have hcall : run ++ q :: after = ['t', 'a', 's', 'k', '('] ++ (r :: (name ++ [r', ')']) ++ rest) := ht
  have hparen : '(' ∉ run := fun h => absurd (hrun _ h) (by decide)
  rcases List.append_eq_append_iff.1 hcall with ⟨tail, hc, hqt⟩ | ⟨tail, hr, -⟩
  · cases tail with
    | nil => exact hparen (by rw [List.append_nil] at hc; rw [← hc]; decide)
    | cons d tail =>
      obtain rfl := (List.cons.inj hqt).1
      have hmem : q ∈ ['t', 'a', 's', 'k', '('] := hc ▸ List.mem_append_right _ List.mem_cons_self
      have hno : ∀ c ∈ ['t', 'a', 's', 'k', '('], isQuote c = false := by simp [isQuote]
      rw [hno q hmem] at hq
      exact absurd hq (by decide)
  · exact hparen (hr ▸ List.mem_append_left _ (by decide))

theorem taskReferences_cons_of_none {c : Char} {rest : List Char} (h : taskAt (c :: rest) = none) :
    taskReferences (c :: rest) = taskReferences rest := by
  rw [taskReferences, h]

theorem taskReferences_append_of_not_mem {front : List Char} (after : List Char) (h : 't' ∉ front) :
    taskReferences (front ++ after) = taskReferences after := by
  induction front with
  | nil => rfl
  | cons c front ih =>
    have hnone : taskAt (c :: (front ++ after)) = none := by
      rw [taskAt_eq_none_iff]
      rintro matched name rest ht ⟨q, q', -, -, -, -, rfl⟩
      exact h (by simp [(List.cons.inj ht).1])
    rw [List.cons_append, taskReferences_cons_of_none hnone]
    exact ih fun hm => h (List.mem_cons_of_mem _ hm)

theorem taskReferences_quoted {run : List Char} {q : Char} (after : List Char)
    (hrun : ∀ c ∈ run, isTaskNameChar c = true) (hq : isQuote q = true) :
    taskReferences (run ++ q :: after) = taskReferences after := by
  induction run with
  | nil => exact taskReferences_cons_of_none (taskAt_quoted after hrun hq)
  | cons c run ih =>
    have hnone : taskAt (c :: (run ++ q :: after)) = none := taskAt_quoted after hrun hq
    rw [List.cons_append, taskReferences_cons_of_none hnone]
    exact ih fun d hd => hrun d (List.mem_cons_of_mem _ hd)

/-- **Task references.** Looking at every character finds what the search for `task('name')` captures, and nothing else
does. -/
theorem captures_taskReferences_iff {text : List Char} {names : List (List Char)} :
    Captures TaskMatch text names ↔ names = taskReferences text := by
  have hscan : Captures TaskMatch text (taskReferences text) := by
    refine captures_of_scan rfl ?_ ?_ text
    · intro c rest hno
      exact taskReferences_cons_of_none (taskAt_eq_none_iff.2 hno)
    · intro matched name after hm
      have hat : taskAt (matched ++ after) = some name := taskAt_eq_some_iff.2 ⟨matched, after, rfl, hm⟩
      obtain ⟨q, q', hq, hq', -, hall, rfl⟩ := hm
      have hq : 't' ∉ ['a', 's', 'k', '(', q] := by
        have hne : 't' ≠ q := by rintro rfl; revert hq; decide
        simp [hne]
      refine ⟨by simp, ?_⟩
      calc taskReferences ('t' :: 'a' :: 's' :: 'k' :: '(' :: q :: (name ++ [q', ')']) ++ after)
          = name :: taskReferences (['a', 's', 'k', '(', q] ++ (name ++ q' :: ([')'] ++ after))) := by
            rw [List.cons_append, taskReferences, ← List.cons_append, hat]
            simp
        _ = name :: taskReferences (name ++ q' :: ([')'] ++ after)) := by rw [taskReferences_append_of_not_mem _ hq]
        _ = name :: taskReferences ([')'] ++ after) := by rw [taskReferences_quoted _ hall hq']
        _ = name :: taskReferences after := by rw [taskReferences_append_of_not_mem _ (by decide)]
  exact ⟨fun h => h.unique taskMatch_functional hscan, fun h => h ▸ hscan⟩

end WorkflowLint.Expression
