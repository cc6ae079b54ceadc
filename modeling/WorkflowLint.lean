import WorkflowLint.Diagram
import WorkflowLint.Main
import WorkflowLint.Proofs.BlockStyle
import WorkflowLint.Proofs.BracketRepair
import WorkflowLint.Proofs.DeclaredVariables
import WorkflowLint.Proofs.Drawing
import WorkflowLint.Proofs.Endpoints
import WorkflowLint.Proofs.FaultPlaces
import WorkflowLint.Proofs.LineEndings
import WorkflowLint.Proofs.MarkPairs
import WorkflowLint.Proofs.NullEntries
import WorkflowLint.Proofs.Offsets
import WorkflowLint.Proofs.RequirementCycles
import WorkflowLint.Proofs.RunReports
import WorkflowLint.Proofs.Scope
import WorkflowLint.Proofs.Segmentation
import WorkflowLint.Proofs.ShapeRules
import WorkflowLint.Proofs.Tags
import WorkflowLint.Proofs.TaskCoverage
import WorkflowLint.Proofs.TaskKeys
import WorkflowLint.Proofs.TaskSpans
import WorkflowLint.Reference
import WorkflowLint.Proofs.Origins
import WorkflowLint.Proofs.Seams
import WorkflowLint.Proofs.Literals
import WorkflowLint.Proofs.LongestMatch
import WorkflowLint.Proofs.KeyRanges
import WorkflowLint.Proofs.TriviaLines
import WorkflowLint.Proofs.TaskNames
import WorkflowLint.Proofs.TaskCalls
import WorkflowLint.Proofs.NodeIds
import WorkflowLint.Proofs.KeyScan
import WorkflowLint.Proofs.LinePartition
