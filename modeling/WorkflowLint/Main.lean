/-
The program: looks at what the paths lead to, runs the command line on it, and prints.

Of what the environment may ask the log for, it understands a level by itself. Lines of the log have no time in front.
-/
import WorkflowLint.CommandLine.Run

namespace WorkflowLint.CommandLine

/-- what a path leads to in the file system -/
def lookUp (path : String) : IO Entry := do
  let place := (← IO.currentDir) / path
  if ← place.isDir then
    let mut files := #[]
    for entry in ← place.readDir do
      if hasLintExtension entry.fileName && (← entry.path.metadata).type == .file then
        files := files.push (entry.fileName, Content.ofBytes (← IO.FS.readBinFile entry.path))
    return .directory files.toList
  else if ← place.pathExists then return .file (Content.ofBytes (← IO.FS.readBinFile place))
  else return .missing

/-- what each of the paths leads to -/
def lookUpAll (paths : List String) : IO (List (String × Entry)) :=
  paths.mapM fun path => do return (path, ← lookUp path)

/-- the journal of a run in an environment with the given filter -/
def journalOf (filter? : Option String) : Journal where
  wanted? := filter?.map fun filter => fun _ => ["debug", "trace"].contains filter.toLower
  line _ record := "DEBUG " ++ record.source ++ ": " ++ record.text ++ "\n"

end WorkflowLint.CommandLine

open WorkflowLint.CommandLine

def main (args : List String) : IO UInt32 := do
  let paths :=
    match Options.read args with
    | .ok options => options.paths
    | .error _ => []
  let entries ← lookUpAll paths
  let journal := journalOf (← IO.getEnv "RUST_LOG")
  let outcome := runIn journal (fun path => (entries.lookup path).getD .missing) args
  IO.print outcome.output.stdout
  IO.eprint outcome.output.stderr
  return outcome.exit.toUInt32
