/-
The linter: everything that is wrong with a document.

A text that is no YAML has that one diagnostic. A document whose root is no mapping is none of ours and has no diagnostics.
Else come the findings about its shape, the faults of its expressions, then what they refer to, names, and tasks that
cannot be reached.
-/
import WorkflowLint.Check.Name
import WorkflowLint.Check.Scope
import WorkflowLint.Check.Shape
import WorkflowLint.Expression.Balance
import WorkflowLint.Workflow.Reachability
import WorkflowLint.Yaml.Document

namespace WorkflowLint

namespace Check

def checkWorkflowOrphans (layout : Layout) (workflow : Workflow) : List Finding :=
  workflow.unreachable.map fun task => ⟨.orphan task workflow.name, layout.task workflow.name task⟩

/-- every finding about tasks that cannot be reached -/
def checkOrphans (layout : Layout) (root : Yaml.Mapping) : List Finding :=
  (Workflow.ofRoot root).flatMap (checkWorkflowOrphans layout)

end Check

open Check

def Expression.LexicalError.diagnostic (error : Expression.LexicalError) : Diagnostic :=
  .lexical error.message error.position

/-- the faults of all embedded expressions -/
def checkExpressions (occurrences : List Expression.Occurrence) : List Diagnostic :=
  occurrences.flatMap fun occurrence =>
    (Expression.check occurrence.bodyStart occurrence.body).map Expression.LexicalError.diagnostic

/-- the diagnostics of a document with the given root -/
def lintRoot (layout : Layout) (root : Yaml.Mapping) : List Diagnostic :=
  let occurrences := Expression.occurrences layout.table
  (checkShape layout root).map Finding.diagnostic ++
    checkExpressions occurrences ++
    (checkScope layout occurrences root).map Finding.diagnostic ++
    (checkNames layout root).map Finding.diagnostic ++
    (checkOrphans layout root).map Finding.diagnostic

/-- what is noted about a document when it has been looked through -/
inductive Remark where
  /-- it is no YAML -/
  | unparsed (error : String)
  /-- its root is no mapping -/
  | skipped
  /-- how many expressions it has, how many findings there are about its shape, and how many diagnostics in all -/
  | validated (expressions structural total : Nat)
deriving DecidableEq, Repr

def Remark.text : Remark → String
  | unparsed error => "YAML parse failed error=" ++ error
  | skipped => "root is not a mapping; skipping"
  | validated expressions structural total =>
    "validated document expressions=" ++ toString expressions ++ " structural=" ++ toString structural ++ " total=" ++
      toString total

/-- the diagnostics of a text, in the order in which they are reported, and what is noted about it -/
def inspect (text : List Char) : List Diagnostic × Remark :=
  let layout := Layout.ofText text
  match Yaml.parse text with
  | .error fault => ([(⟨.unparsable fault, layout.top⟩ : Finding).diagnostic], .unparsed fault.message)
  | .ok value =>
    match value.mapping? with
    | none => ([], .skipped)
    | some root =>
      let diagnostics := lintRoot layout root
      (diagnostics, .validated (Expression.occurrences layout.table).length (checkShape layout root).length
        diagnostics.length)

/-- the diagnostics of a text -/
def lint (text : List Char) : List Diagnostic :=
  (inspect text).1

theorem lint_of_root {text : List Char} {value : Yaml.Value} {root : Yaml.Mapping} (hparse : Yaml.parse text = .ok value)
    (hroot : value.mapping? = some root) : lint text = lintRoot (Layout.ofText text) root := by
  rw [lint, inspect, hparse]
  simp only [hroot]

/-- A text is no YAML, or its root is no mapping, or it is linted as what its root is. -/
theorem lint_cases (text : List Char) :
    (∃ fault, Yaml.parse text = .error fault ∧
      lint text = [(⟨.unparsable fault, (Layout.ofText text).top⟩ : Finding).diagnostic]) ∨
    (∃ value, Yaml.parse text = .ok value ∧ value.mapping? = none ∧ lint text = []) ∨
    ∃ value root, Yaml.parse text = .ok value ∧ value.mapping? = some root ∧
      lint text = lintRoot (Layout.ofText text) root := by
  cases hparse : Yaml.parse text with
  | error fault => exact Or.inl ⟨fault, rfl, by simp only [lint, inspect, hparse]⟩
  | ok value =>
    cases hroot : value.mapping? with
    | none => exact Or.inr (Or.inl ⟨value, rfl, hroot, by simp only [lint, inspect, hparse, hroot]⟩)
    | some root => exact Or.inr (Or.inr ⟨value, root, rfl, hroot, lint_of_root hparse hroot⟩)

end WorkflowLint
