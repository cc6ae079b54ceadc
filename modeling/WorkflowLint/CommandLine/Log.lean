/-
The log of a run: what is noted on the way, and which of it is written.

A record that is wanted becomes a line on standard error as soon as it is noted. Which records are wanted is for the
environment to say; where it says nothing, a verbose run wants all of them and any other run none. The lines have the time in
front and are written by somebody else's code, so they are a parameter here, as the environment is.

What is noted below this level, about tasks without a header, is left out: no option asks for it.
-/
import WorkflowLint.Lint

namespace WorkflowLint.CommandLine

/-- something that is noted during a run -/
inductive Record where
  /-- so many files are going to be linted -/
  | collected (count : Nat)
  /-- a file was read and looked through -/
  | inspected (remark : Remark)
deriving DecidableEq, Repr

namespace Record

/-- the part of the program that notes it -/
def source : Record → String
  | collected _ => "mistral_lint"
  | inspected _ => "mistral_lint::validate"

/-- what is noted, with its figures -/
def text : Record → String
  | collected count => "collected files count=" ++ toString count
  | inspected remark => remark.text

end Record

/-- what a run's log depends on besides the run -/
structure Journal where
  /-- what the environment asks for, if it says anything -/
  wanted? : Option (Record → Bool)
  /-- the line with the given number, from zero -/
  line : Nat → Record → String

namespace Journal

/-- whether a record is written -/
def wants (journal : Journal) (verbose : Bool) (record : Record) : Bool :=
  match journal.wanted? with
  | some wanted => wanted record
  | none => verbose

/-- the journal of an environment that asks for nothing -/
def silent : Journal :=
  ⟨some fun _ => false, fun _ _ => ""⟩

end Journal

end WorkflowLint.CommandLine
