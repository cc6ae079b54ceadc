/-
The shape check reports each broken rule once, and nothing else.

The rules of a document are written down here as a table. A `KeyRule` asks something of the value at one key of a mapping:
the key must be there, or null counts as absent, or whatever is written there counts; and the value must fit a `Shape`.
`demands` lists every rule together with what it is asked of: the root, each workflow and each task, in order of report.
Nothing is asked of the inside of a workflow or task that is no mapping, except that it be one.

What a rule means (`Demand.Met`) is said of entries and values, without the accessors and tests of the check. `passes_iff` and
`Shape.test_iff` tie the two together, and `checkShape_violations` says that the findings are those of the demands that are
not met, one each and in order: no early return hides a finding of another rule.
-/
import Mathlib.Algebra.Order.Field.Power
import Mathlib.Algebra.Order.Field.Rat
import Mathlib.Tactic.Positivity
import WorkflowLint.Check.Shape

namespace WorkflowLint

open WorkflowLint.Yaml

/-! ## Numbers -/

namespace Binary64

/-- the number that is meant, unless it is infinite or none at all -/
def toRat? : Binary64 → Option ℚ
  | finite negative mantissa exponent => some ((if negative then -1 else 1) * (mantissa * 2 ^ exponent))
  | _ => none

/-- zero or above, the infinite number included -/
def AtLeastZero (x : Binary64) : Prop :=
  x = infinite false ∨ ∃ q, x.toRat? = some q ∧ 0 ≤ q

theorem isNonNegative_iff {x : Binary64} : x.isNonNegative = true ↔ x.AtLeastZero := by
  cases x with
  | nan => simp [isNonNegative, AtLeastZero, toRat?]
  | infinite negative => simp [isNonNegative, AtLeastZero, toRat?]
  | finite negative mantissa exponent =>
    have hpower : (0 : ℚ) < 2 ^ exponent := by positivity
    have hmantissa : (0 : ℚ) ≤ mantissa := Nat.cast_nonneg mantissa
    cases negative with
    | false =>
      have hq : (0 : ℚ) ≤ mantissa * 2 ^ exponent := mul_nonneg hmantissa hpower.le
      simpa [isNonNegative, AtLeastZero, toRat?] using hq
    | true =>
      have hzero : (mantissa : ℚ) * 2 ^ exponent ≤ 0 ↔ mantissa = 0 := by
        constructor
        · intro h
          exact Nat.cast_eq_zero.1 (le_antisymm (nonpos_of_mul_nonpos_left h hpower) hmantissa)
        · rintro rfl
          simp
      simpa [isNonNegative, AtLeastZero, toRat?] using hzero.symm

end Binary64

/-! ## Entries of a mapping -/

namespace Yaml.Value

theorem isNull_iff {value : Value} : value.isNull = true ↔ value.bare = .null := by
  unfold isNull
  split <;> simp_all

theorem string?_eq_some_iff {value : Value} {s : String} : value.string? = some s ↔ value.bare = .str s := by
  unfold string?
  split <;> simp_all

theorem mapping?_eq_some_iff {value : Value} {entries : Mapping} :
    value.mapping? = some entries ↔ value.bare = .map entries := by
  unfold mapping?
  split <;> simp_all

theorem items?_eq_some_iff {value : Value} {items : List Value} : value.items? = some items ↔ value.bare = .seq items := by
  unfold items?
  split <;> simp_all

end Yaml.Value

namespace Yaml.Mapping

/-- the first entry whose key is the string `key` has the value `value` -/
def Maps (entries : Mapping) (key : String) (value : Value) : Prop :=
  ∃ before after, entries = before ++ (.str key, value) :: after ∧ ∀ entry ∈ before, entry.1 ≠ .str key

theorem maps_cons_self (key : String) (value : Value) (rest : Mapping) {other : Value} :
    Maps ((.str key, value) :: rest) key other ↔ value = other := by
  constructor
  · rintro ⟨before, after, heq, hbefore⟩
    cases before with
    | nil => exact (Prod.mk.inj (List.cons.inj heq).1).2
    | cons first before =>
      obtain ⟨rfl, -⟩ := List.cons.inj heq
      exact absurd rfl (hbefore _ List.mem_cons_self)
  · rintro rfl
    exact ⟨[], rest, rfl, nofun⟩

theorem maps_cons_of_ne {entry : Value × Value} {key : String} (rest : Mapping) (h : entry.1 ≠ .str key) {value : Value} :
    Maps (entry :: rest) key value ↔ Maps rest key value := by
  constructor
  · rintro ⟨before, after, heq, hbefore⟩
    cases before with
    | nil =>
      obtain ⟨rfl, -⟩ := List.cons.inj heq
      exact absurd rfl h
    | cons first before =>
      obtain ⟨rfl, rfl⟩ := List.cons.inj heq
      exact ⟨before, after, rfl, fun other ho => hbefore other (List.mem_cons_of_mem _ ho)⟩
  · rintro ⟨before, after, rfl, hbefore⟩
    refine ⟨entry :: before, after, rfl, fun other ho => ?_⟩
    rcases List.mem_cons.1 ho with rfl | ho
    · exact h
    · exact hbefore other ho

theorem field?_cons_self (key : String) (value : Value) (rest : Mapping) :
    field? ((.str key, value) :: rest) key = some value :=
  if_pos rfl

theorem field?_cons_of_ne {entry : Value × Value} {key : String} (rest : Mapping) (h : entry.1 ≠ .str key) :
    field? (entry :: rest) key = field? rest key := by
  obtain ⟨k, value⟩ := entry
  cases k with
  | str s => exact if_neg fun heq => h (congrArg Value.str heq)
  | _ => rfl

theorem field?_eq_some_iff {entries : Mapping} {key : String} {value : Value} :
    field? entries key = some value ↔ Maps entries key value := by
  induction entries with
  | nil => simp [field?, Maps]
  | cons entry rest ih =>
    by_cases h : entry.1 = .str key
    · obtain ⟨k, found⟩ := entry
      obtain rfl : k = .str key := h
      rw [field?_cons_self, maps_cons_self, Option.some.injEq]
    · rw [field?_cons_of_ne rest h, maps_cons_of_ne rest h, ih]

theorem present?_eq_some_iff {entries : Mapping} {key : String} {value : Value} :
    present? entries key = some value ↔ Maps entries key value ∧ value.bare ≠ .null := by
  rw [present?, Option.filter_eq_some_iff, field?_eq_some_iff, Bool.not_eq_true', ne_eq, ← Value.isNull_iff, Bool.not_eq_true]

end Yaml.Mapping

namespace Check

/-! ## Rules -/

/-- what a value may be -/
inductive Shape where
  /-- one of the given strings -/
  | oneOf (choices : List String)
  | string
  | mapping
  /-- a sequence or a mapping -/
  | collection
  /-- a string, or a sequence of strings and mappings -/
  | successors
  /-- a mapping with an item and values -/
  | loop
  /-- a number from zero up -/
  | delay
  /-- a whole number from one up -/
  | count

/-- a value of the shape, whatever its tags -/
def Shape.Fits : Shape → Value → Prop
  | oneOf choices, value => ∃ s ∈ choices, value.bare = .str s
  | string, value => ∃ s, value.bare = .str s
  | mapping, value => ∃ entries, value.bare = .map entries
  | collection, value => (∃ items, value.bare = .seq items) ∨ ∃ entries, value.bare = .map entries
  | successors, value => (∃ s, value.bare = .str s) ∨
      ∃ items, value.bare = .seq items ∧ ∀ item ∈ items, (∃ s, item.bare = .str s) ∨ ∃ entries, item.bare = .map entries
  | loop, value => ∃ entries, value.bare = .map entries ∧
      ∀ key ∈ ["item", "values"], ∃ part, Mapping.Maps entries key part ∧ part.bare ≠ .null
  | delay, value => (∃ n, value.bare = .int n ∧ 0 ≤ n) ∨ ∃ x, value.bare = .float x ∧ x.AtLeastZero
  | count, value => ∃ n, value.bare = .int n ∧ 1 ≤ n

/-- what counts as a value of a key -/
inductive Presence where
  /-- there must be a value that is not null -/
  | required
  /-- null counts as absent -/
  | optional
  /-- null counts like any other value -/
  | written

/-- a rule about the value of a key, and what is reported if it is broken: `finding` is given the value, unless there is none
or it is null -/
structure KeyRule where
  key : String
  presence : Presence
  shape : Shape
  finding : Option Value → Finding

/-- the rule holds of a mapping -/
def KeyRule.Holds (rule : KeyRule) (entries : Mapping) : Prop :=
  match rule.presence with
  | .required => ∃ value, Mapping.Maps entries rule.key value ∧ rule.shape.Fits value
  | .optional => ∀ value, Mapping.Maps entries rule.key value → value.bare = .null ∨ rule.shape.Fits value
  | .written => ∀ value, Mapping.Maps entries rule.key value → rule.shape.Fits value

/-- a rule together with what it is asked of -/
inductive Demand where
  | key (rule : KeyRule) (entries : Mapping)
  /-- a workflow or a task is a mapping -/
  | mapping (value : Value) (finding : Finding)
  /-- a task has a name -/
  | named (task : String) (finding : Finding)
  /-- a task has something to do -/
  | duty (attributes : Mapping) (finding : Finding)

namespace Demand

def Met : Demand → Prop
  | key rule entries => rule.Holds entries
  | mapping value _ => ∃ entries, value.bare = .map entries
  | named task _ => task ≠ ""
  | duty attributes _ =>
    ∃ key ∈ ["action", "workflow", "task-defaults"], ∃ value, Mapping.Maps attributes key value ∧ value.bare ≠ .null

/-- what is reported if the demand is not met -/
def finding : Demand → Finding
  | key rule entries => rule.finding (Mapping.present? entries rule.key)
  | mapping _ finding => finding
  | named _ finding => finding
  | duty _ finding => finding

end Demand

/-! ## The rules of a document -/

/-- the entries of the mapping at a key -/
def sectionAt (entries : Mapping) (key : String) : Mapping :=
  match Mapping.field? entries key with
  | some value =>
    match value.bare with
    | .map inner => inner
    | _ => []
  | none => []

def rootRules (layout : Layout) : List KeyRule :=
  [⟨"version", .required, .oneOf ["2.0"], fun value =>
      ⟨if value.isSome then .unsupportedVersion else .missingVersion, layout.rootKey "version"⟩⟩,
    ⟨"workflows", .required, .mapping, fun value =>
      if value.isSome then ⟨.workflowsShape, layout.rootKey "workflows"⟩ else ⟨.missingWorkflows, layout.top⟩⟩]

/-- the rules of a workflow that are reported before those of its tasks -/
def leadingRules (layout : Layout) (workflow : String) : List KeyRule :=
  [⟨"type", .optional, .oneOf ["direct", "reverse"], fun value =>
      ⟨.workflowType ((value.map Value.label).getD ""), layout.workflowKey workflow "type"⟩⟩,
    ⟨"tasks", .required, .mapping, fun value =>
      if value.isSome then ⟨.tasksShape workflow, layout.workflowKey workflow "tasks"⟩
      else ⟨.missingTasks workflow, layout.workflow workflow⟩⟩]

/-- the rules of a workflow that are reported after the basic ones of its tasks -/
def trailingRules (layout : Layout) (workflow : String) : List KeyRule :=
  [⟨"input", .optional, .collection, fun _ => ⟨.workflowInputShape workflow, layout.workflowKey workflow "input"⟩⟩,
    ⟨"task-defaults", .optional, .mapping, fun _ =>
      ⟨.defaultsShape workflow, layout.workflowKey workflow "task-defaults"⟩⟩]

/-- the basic rules of a task -/
def basicRules (layout : Layout) (workflow task : String) : List KeyRule :=
  ⟨"input", .optional, .mapping, fun _ => ⟨.taskInputShape task, layout.taskKey workflow task "input"⟩⟩ ::
    Transition.all.map fun transition =>
      ⟨transition.key, .optional, .successors, fun _ =>
        ⟨.transitionShape transition task, layout.taskKey workflow task transition.key⟩⟩

/-- the rules of a task's further attributes -/
def furtherRules (layout : Layout) (workflow task : String) : List KeyRule :=
  let place := layout.taskKey workflow task
  [⟨"with-items", .optional, .loop, fun value =>
      ⟨if (value.bind Value.mapping?).isSome then .loopKeys else .loopShape, place "with-items"⟩⟩,
    ⟨"pause-before", .written, .delay, fun _ => ⟨.negativeDelay "pause-before", place "pause-before"⟩⟩,
    ⟨"wait-after", .written, .delay, fun _ => ⟨.negativeDelay "wait-after", place "wait-after"⟩⟩,
    ⟨"concurrency", .written, .count, fun _ => ⟨.concurrency, place "concurrency"⟩⟩,
    ⟨"join", .written, .oneOf ["all", "any"], fun _ => ⟨.joinMode, place "join"⟩⟩,
    ⟨"target", .optional, .string, fun _ => ⟨.targetShape, place "target"⟩⟩,
    ⟨"output-on-error", .optional, .mapping, fun _ => ⟨.errorOutputShape, place "output-on-error"⟩⟩]

/-- what is asked of an entry of `tasks` first -/
def basicDemands (layout : Layout) (workflow : String) (entry : Value × Value) : List Demand :=
  .mapping entry.2 ⟨.taskShape workflow, layout.task workflow entry.1.label⟩ ::
    match entry.2.bare with
    | .map attributes =>
      .named entry.1.label ⟨.namelessTask workflow, layout.workflowKey workflow "tasks"⟩ ::
        .duty attributes ⟨.idleTask entry.1.label, layout.task workflow entry.1.label⟩ ::
        (basicRules layout workflow entry.1.label).map fun rule => .key rule attributes
    | _ => []

/-- what is asked of an entry of `tasks` after that -/
def furtherDemands (layout : Layout) (workflow : String) (entry : Value × Value) : List Demand :=
  match entry.2.bare with
  | .map attributes => (furtherRules layout workflow entry.1.label).map fun rule => .key rule attributes
  | _ => []

/-- what is asked of an entry of `workflows` -/
def workflowDemands (layout : Layout) (entry : Value × Value) : List Demand :=
  .mapping entry.2 ⟨.workflowShape entry.1.label, layout.workflow entry.1.label⟩ ::
    match entry.2.bare with
    | .map attributes =>
      (leadingRules layout entry.1.label).map (fun rule => .key rule attributes) ++
        (sectionAt attributes "tasks").flatMap (basicDemands layout entry.1.label) ++
        (trailingRules layout entry.1.label).map (fun rule => .key rule attributes) ++
        (sectionAt attributes "tasks").flatMap (furtherDemands layout entry.1.label)
    | _ => []

/-- everything that is asked of a document with the given root, in order of report -/
def demands (layout : Layout) (root : Mapping) : List Demand :=
  (rootRules layout).map (fun rule => .key rule root) ++ (sectionAt root "workflows").flatMap (workflowDemands layout)

/-! ## Testing the rules -/

/-- whether a value is a mapping with an item and values -/
def isLoop (value : Value) : Bool :=
  match value.mapping? with
  | some entries => (Mapping.present? entries "item").isSome && (Mapping.present? entries "values").isSome
  | none => false

/-- how the check tests for a shape -/
def Shape.test : Shape → Value → Bool
  | oneOf choices => isOneOf choices
  | string => fun value => value.string?.isSome
  | mapping => fun value => value.mapping?.isSome
  | collection => fun value => value.items?.isSome || value.mapping?.isSome
  | successors => isTransition
  | loop => isLoop
  | delay => isDelay
  | count => isCount

theorem isSome_present?_iff {entries : Mapping} {key : String} :
    (Mapping.present? entries key).isSome = true ↔ ∃ value, Mapping.Maps entries key value ∧ value.bare ≠ .null := by
  simp only [Option.isSome_iff_exists, Mapping.present?_eq_some_iff]

theorem isOneOf_iff {choices : List String} {value : Value} :
    isOneOf choices value = true ↔ ∃ s ∈ choices, value.bare = .str s := by
  unfold isOneOf
  cases hs : value.string? with
  | none =>
    have hno : ∀ s, value.bare ≠ .str s := fun s h => by
      rw [Value.string?_eq_some_iff.2 h] at hs
      cases hs
    simp [hno]
  | some s =>
    rw [Value.string?_eq_some_iff] at hs
    simp [hs]

theorem isTransition_iff {value : Value} : isTransition value = true ↔ Shape.successors.Fits value := by
  unfold isTransition Shape.Fits
  split
  case h_1 s h => simp [h]
  case h_2 items h =>
    simp only [h, List.all_eq_true, reduceCtorEq, exists_false, Value.seq.injEq, exists_eq_left', false_or]
    refine forall₂_congr fun item hi => ?_
    split <;> simp_all
  case h_3 hstr hseq => simp_all

theorem isLoop_iff {value : Value} : isLoop value = true ↔ Shape.loop.Fits value := by
  unfold isLoop Shape.Fits
  split
  case h_1 entries h => simp [Value.mapping?_eq_some_iff.1 h, isSome_present?_iff]
  case h_2 h =>
    have hno : ∀ entries, value.bare ≠ .map entries := fun entries he => by
      rw [Value.mapping?_eq_some_iff.2 he] at h
      cases h
    simp [hno]

theorem isDelay_iff {value : Value} : isDelay value = true ↔ Shape.delay.Fits value := by
  unfold isDelay Shape.Fits
  split
  case h_1 n h => simp [h]
  case h_2 x h => simp [h, Binary64.isNonNegative_iff]
  case h_3 hint hfloat => simp_all

theorem isCount_iff {value : Value} : isCount value = true ↔ Shape.count.Fits value := by
  unfold isCount Shape.Fits
  split
  case h_1 n h => simp [h]
  case h_2 hint => simp_all

/-- The check tests for the shapes that are meant. -/
theorem Shape.test_iff {shape : Shape} {value : Value} : shape.test value = true ↔ shape.Fits value := by
  cases shape with
  | oneOf choices => exact isOneOf_iff
  | string => simp [test, Fits, Option.isSome_iff_exists, Value.string?_eq_some_iff]
  | mapping => simp [test, Fits, Option.isSome_iff_exists, Value.mapping?_eq_some_iff]
  | collection => simp [test, Fits, Option.isSome_iff_exists, Value.mapping?_eq_some_iff, Value.items?_eq_some_iff]
  | successors => exact isTransition_iff
  | loop => exact isLoop_iff
  | delay => exact isDelay_iff
  | count => exact isCount_iff

/-- how the check tests a rule -/
def KeyRule.passes (rule : KeyRule) (entries : Mapping) : Bool :=
  match rule.presence with
  | .required => (Mapping.present? entries rule.key).any rule.shape.test
  | .optional => absentOr rule.shape.test (Mapping.present? entries rule.key)
  | .written => absentOr rule.shape.test (Mapping.field? entries rule.key)

theorem absentOr_iff {p : Value → Bool} {value? : Option Value} :
    absentOr p value? = true ↔ ∀ value, value? = some value → p value = true := by
  cases value? with
  | none => simp [absentOr]
  | some value => simp [absentOr]

/-- No shape is that of null. -/
theorem Shape.Fits.ne_null {shape : Shape} {value : Value} (h : shape.Fits value) : value.bare ≠ .null := by
  intro hnull
  cases shape <;> simp [Fits, hnull] at h

theorem KeyRule.passes_iff {rule : KeyRule} {entries : Mapping} : rule.passes entries = true ↔ rule.Holds entries := by
  unfold passes Holds
  cases rule.presence with
  | required =>
    simp only [Option.any_eq_true, Mapping.present?_eq_some_iff, Shape.test_iff]
    refine exists_congr fun value => ?_
    exact ⟨fun h => ⟨h.1.1, h.2⟩, fun h => ⟨⟨h.1, h.2.ne_null⟩, h.2⟩⟩
  | optional =>
    simp only [absentOr_iff, Mapping.present?_eq_some_iff, Shape.test_iff, and_imp]
    refine forall₂_congr fun value hvalue => ?_
    exact ⟨fun h => or_iff_not_imp_left.2 h, fun h => or_iff_not_imp_left.1 h⟩
  | written => simp only [absentOr_iff, Mapping.field?_eq_some_iff, Shape.test_iff]

namespace Demand

/-- how the check tests a demand -/
def test : Demand → Bool
  | key rule entries => rule.passes entries
  | mapping value _ => value.mapping?.isSome
  | named task _ => task != ""
  | duty attributes _ => duties.any fun key => (Mapping.present? attributes key).isSome

theorem test_iff {demand : Demand} : demand.test = true ↔ demand.Met := by
  cases demand with
  | key rule entries => exact KeyRule.passes_iff
  | mapping value finding => exact Shape.mapping.test_iff
  | named task finding => simp [test, Met]
  | duty attributes finding => simp [test, Met, duties, isSome_present?_iff]

instance (demand : Demand) : Decidable demand.Met :=
  decidable_of_iff _ test_iff

/-- what the check reports of a demand -/
def report (demand : Demand) : List Finding :=
  if demand.test then [] else [demand.finding]

theorem flatMap_report (list : List Demand) :
    list.flatMap report = (list.filter fun demand => ¬ demand.Met).map finding := by
  induction list with
  | nil => rfl
  | cons demand list ih =>
    rw [List.flatMap_cons, ih, report]
    by_cases h : demand.Met
    · simp [h, test_iff.2 h]
    · have ht : demand.test = false := by rwa [← Bool.not_eq_true, test_iff]
      simp [h, ht]

end Demand

/-! ## The check asks for what the rules demand -/

theorem flatMap_report_keys (rules : List KeyRule) (entries : Mapping) :
    (rules.map fun rule => Demand.key rule entries).flatMap Demand.report =
      rules.flatMap fun rule => (Demand.key rule entries).report := by
  rw [List.flatMap_map]

theorem mapping?_eq_none {value : Value} (h : ∀ entries, value.bare ≠ .map entries) : value.mapping? = none := by
  cases hm : value.mapping? with
  | none => rfl
  | some entries => exact absurd (Value.mapping?_eq_some_iff.1 hm) (h entries)

theorem report_mapping_of_bare {value : Value} {entries : Mapping} (h : value.bare = .map entries) (finding : Finding) :
    (Demand.mapping value finding).report = [] := by
  simp [Demand.report, Demand.test, Value.mapping?_eq_some_iff.2 h]

theorem report_mapping_of_ne {value : Value} (h : ∀ entries, value.bare ≠ .map entries) (finding : Finding) :
    (Demand.mapping value finding).report = [finding] := by
  simp [Demand.report, Demand.test, mapping?_eq_none h, Demand.finding]

theorem checkTask_eq (layout : Layout) (workflow : String) (entry : Value × Value) :
    checkTask layout workflow (Task.ofEntry entry) = (basicDemands layout workflow entry).flatMap Demand.report := by
  unfold basicDemands
  split
  case h_1 attributes h =>
    rw [List.flatMap_cons, report_mapping_of_bare h, List.flatMap_cons, List.flatMap_cons, flatMap_report_keys, Task.ofEntry,
      Value.mapping?_eq_some_iff.2 h]
    simp only [checkTask, basicRules, List.flatMap_cons, List.flatMap_map, List.append_assoc, List.nil_append]
    rfl
  case h_2 hne =>
    rw [List.flatMap_cons, report_mapping_of_ne hne, Task.ofEntry, mapping?_eq_none hne]
    rfl

/-- A loop is found at fault for not being a mapping, or else for its keys. -/
theorem report_loop (task : Task) {attributes : Mapping} (h : task.attributes = some attributes) (range : Range) :
    (match loopProblem? task with
      | some problem => [⟨problem, range⟩]
      | none => []) =
      (Demand.key ⟨"with-items", .optional, .loop, fun value =>
        ⟨if (value.bind Value.mapping?).isSome then .loopKeys else .loopShape, range⟩⟩ attributes).report := by
  have hget : task.get? "with-items" = Mapping.present? attributes "with-items" := by simp [Task.get?, h]
  simp only [loopProblem?, hget, Demand.report, Demand.test, Demand.finding, KeyRule.passes, Shape.test]
  obtain hp | ⟨value, hp⟩ := Option.eq_none_or_eq_some (Mapping.present? attributes "with-items")
  · simp [hp, absentOr]
  · cases hm : value.mapping? with
    | none => simp [hp, hm, absentOr, isLoop]
    | some entries =>
      simp only [hp, hm, absentOr, isLoop, Option.bind_some, Option.isSome_some, if_true]
      cases (Mapping.present? entries "item").isSome && (Mapping.present? entries "values").isSome with
      | true => rfl
      | false => rfl

theorem checkAttributes_eq (layout : Layout) (workflow : String) (entry : Value × Value) :
    checkAttributes layout workflow (Task.ofEntry entry) =
      (furtherDemands layout workflow entry).flatMap Demand.report := by
  unfold furtherDemands
  split
  case h_1 attributes h =>
    have hentry : Task.ofEntry entry = ⟨entry.1.label, some attributes⟩ := by
      rw [Task.ofEntry, Value.mapping?_eq_some_iff.2 h]
    have hloop := report_loop ⟨entry.1.label, some attributes⟩ rfl (layout.taskKey workflow entry.1.label "with-items")
    rw [flatMap_report_keys, hentry, checkAttributes, if_neg (by simp)]
    simp only [furtherRules, delays, List.flatMap_cons, List.flatMap_nil, List.append_assoc, List.append_nil]
    exact congrArg₂ _ hloop rfl
  case h_2 hne =>
    rw [Task.ofEntry, mapping?_eq_none hne]
    rfl

/-- The mapping at a key holds the same entries whether null is taken for absent or not. -/
theorem sectionAt_eq (entries : Mapping) (key : String) :
    sectionAt entries key = ((Mapping.present? entries key).bind Value.mapping?).getD [] := by
  unfold sectionAt Mapping.present?
  cases Mapping.field? entries key with
  | none => rfl
  | some value =>
    simp only [Option.filter_some]
    split
    case h_1 inner h => simp [Value.isNull, h, Value.mapping?]
    case h_2 hne =>
      have hm := mapping?_eq_none hne
      split <;> simp [hm]

theorem tasks_eq_sectionAt {workflow : Workflow} {attributes : Mapping} (h : workflow.attributes = some attributes) :
    workflow.tasks = (sectionAt attributes "tasks").map Task.ofEntry := by
  rw [sectionAt_eq]
  simp only [Workflow.tasks, Workflow.taskEntries?, Workflow.get?, h, Option.bind_some]
  cases (Mapping.present? attributes "tasks").bind Value.mapping? with
  | none => rfl
  | some entries => rfl

theorem ofRoot_eq_sectionAt (root : Mapping) : Workflow.ofRoot root = (sectionAt root "workflows").map Workflow.ofEntry := by
  rw [sectionAt_eq, Workflow.ofRoot]
  cases (Mapping.present? root "workflows").bind Value.mapping? with
  | none => rfl
  | some entries => rfl

/-- A section that must be a mapping is missing, or has the wrong shape, or is one. -/
theorem report_section (entries : Mapping) (key : String) (missing misshapen : Finding) {rest : List Finding}
    (hrest : sectionAt entries key = [] → rest = []) :
    (match Mapping.present? entries key with
      | none => [missing]
      | some value => if value.mapping?.isNone then [misshapen] else rest) =
      (Demand.key ⟨key, .required, .mapping, fun value => if value.isSome then misshapen else missing⟩ entries).report ++
        rest := by
  rw [sectionAt_eq] at hrest
  simp only [Demand.report, Demand.test, Demand.finding, KeyRule.passes, Shape.test]
  obtain hp | ⟨value, hp⟩ := Option.eq_none_or_eq_some (Mapping.present? entries key)
  · have hnil : rest = [] := hrest (by simp [hp])
    simp [hp, hnil]
  · cases hm : value.mapping? with
    | none =>
      have hnil : rest = [] := hrest (by simp [hp, hm])
      simp [hp, hm, hnil]
    | some inner => simp [hp, hm]

theorem checkType_eq (layout : Layout) {workflow : Workflow} {attributes : Mapping}
    (h : workflow.attributes = some attributes) :
    checkType layout workflow =
      (Demand.key ⟨"type", .optional, .oneOf ["direct", "reverse"], fun value =>
        ⟨.workflowType ((value.map Value.label).getD ""), layout.workflowKey workflow.name "type"⟩⟩ attributes).report := by
  have hget : workflow.get? "type" = Mapping.present? attributes "type" := by simp [Workflow.get?, h]
  simp only [checkType, hget, Demand.report, Demand.test, Demand.finding, KeyRule.passes, Shape.test]
  obtain hp | ⟨value, hp⟩ := Option.eq_none_or_eq_some (Mapping.present? attributes "type")
  · simp [hp, absentOr]
  · simp only [hp, absentOr, Option.map_some, Option.getD_some]
    rfl

theorem checkTasks_eq (layout : Layout) {workflow : Workflow} {attributes : Mapping}
    (h : workflow.attributes = some attributes) :
    checkTasks layout workflow =
      (Demand.key ⟨"tasks", .required, .mapping, fun value =>
        if value.isSome then ⟨.tasksShape workflow.name, layout.workflowKey workflow.name "tasks"⟩
        else ⟨.missingTasks workflow.name, layout.workflow workflow.name⟩⟩ attributes).report ++
      ((sectionAt attributes "tasks").flatMap (basicDemands layout workflow.name)).flatMap Demand.report := by
  have hget : workflow.get? "tasks" = Mapping.present? attributes "tasks" := by simp [Workflow.get?, h]
  have hbasic : workflow.tasks.flatMap (checkTask layout workflow.name) =
      ((sectionAt attributes "tasks").flatMap (basicDemands layout workflow.name)).flatMap Demand.report := by
    simp only [tasks_eq_sectionAt h, List.flatMap_map, checkTask_eq, List.flatMap_assoc]
  rw [checkTasks, hget, hbasic]
  refine report_section attributes "tasks" _ _ fun hempty => ?_
  rw [hempty]
  rfl

theorem checkWorkflow_eq (layout : Layout) (entry : Value × Value) :
    checkWorkflow layout (Workflow.ofEntry entry) = (workflowDemands layout entry).flatMap Demand.report := by
  unfold workflowDemands
  split
  case h_1 attributes h =>
    have hentry : Workflow.ofEntry entry = ⟨entry.1.label, some attributes⟩ := by
      rw [Workflow.ofEntry, Value.mapping?_eq_some_iff.2 h]
    have hfurther : (⟨entry.1.label, some attributes⟩ : Workflow).tasks.flatMap (checkAttributes layout entry.1.label) =
        ((sectionAt attributes "tasks").flatMap (furtherDemands layout entry.1.label)).flatMap Demand.report := by
      simp only [@tasks_eq_sectionAt ⟨entry.1.label, some attributes⟩ attributes rfl, List.flatMap_map, checkAttributes_eq,
        List.flatMap_assoc]
    rw [hentry, checkWorkflow, if_neg (by simp), checkType_eq layout rfl, checkTasks_eq layout rfl, hfurther,
      List.flatMap_cons, report_mapping_of_bare h]
    simp only [List.flatMap_append, flatMap_report_keys, leadingRules, trailingRules, List.flatMap_cons, List.flatMap_nil,
      List.append_assoc, List.append_nil, List.nil_append]
    rfl
  case h_2 hne =>
    rw [List.flatMap_cons, report_mapping_of_ne hne, Workflow.ofEntry, mapping?_eq_none hne]
    rfl

theorem checkVersion_eq (layout : Layout) (root : Mapping) :
    checkVersion layout root =
      (Demand.key ⟨"version", .required, .oneOf ["2.0"], fun value =>
        ⟨if value.isSome then .unsupportedVersion else .missingVersion, layout.rootKey "version"⟩⟩ root).report := by
  simp only [checkVersion, Demand.report, Demand.test, Demand.finding, KeyRule.passes, Shape.test]
  obtain hp | ⟨value, hp⟩ := Option.eq_none_or_eq_some (Mapping.present? root "version")
  · simp [hp]
  · simp only [hp, Option.any_some, Option.isSome_some, if_true]
    rfl

theorem checkWorkflows_eq (layout : Layout) (root : Mapping) :
    checkWorkflows layout root =
      (Demand.key ⟨"workflows", .required, .mapping, fun value =>
        if value.isSome then ⟨.workflowsShape, layout.rootKey "workflows"⟩ else ⟨.missingWorkflows, layout.top⟩⟩ root).report ++
      ((sectionAt root "workflows").flatMap (workflowDemands layout)).flatMap Demand.report := by
  have hworkflows : (Workflow.ofRoot root).flatMap (checkWorkflow layout) =
      ((sectionAt root "workflows").flatMap (workflowDemands layout)).flatMap Demand.report := by
    simp only [ofRoot_eq_sectionAt, List.flatMap_map, checkWorkflow_eq, List.flatMap_assoc]
  rw [checkWorkflows, hworkflows]
  refine report_section root "workflows" _ _ fun hempty => ?_
  rw [hempty]
  rfl

/-- The findings are the reports of the demands, one after the other. -/
theorem checkShape_eq_reports (layout : Layout) (root : Mapping) :
    checkShape layout root = (demands layout root).flatMap Demand.report := by
  rw [checkShape, checkVersion_eq, checkWorkflows_eq, demands, List.flatMap_append, flatMap_report_keys]
  simp only [rootRules, List.flatMap_cons, List.flatMap_nil, List.append_assoc, List.append_nil]

/-- **One finding for each broken rule.** The shape check reports the demands of a document that are not met, each once and in
order, and nothing else. So it reports nothing of a document that keeps all the rules, and only of such a one. -/
theorem checkShape_violations (layout : Layout) (root : Mapping) :
    checkShape layout root = ((demands layout root).filter fun demand => ¬ demand.Met).map Demand.finding ∧
      (checkShape layout root = [] ↔ ∀ demand ∈ demands layout root, demand.Met) := by
  have hreports : checkShape layout root = ((demands layout root).filter fun demand => ¬ demand.Met).map Demand.finding := by
    rw [checkShape_eq_reports, Demand.flatMap_report]
  refine ⟨hreports, ?_⟩
  rw [hreports, List.map_eq_nil_iff, List.filter_eq_nil_iff]
  simp

end Check

end WorkflowLint
