/-
A run of the command line: which files the paths lead to, what is reported about each, and the exit status.

A path that leads nowhere is reported before any file is read. A file is linted by itself; of a directory the files directly
inside whose name has one of the known extensions are linted, in the order of their names. The status is a failure if a
path is missing, a file cannot be read, or something is found; options only change what is printed.

A run goes over the paths and then over the files, and takes its `Progress` along. What it notes on the way goes to its
`Journal`.
-/
import WorkflowLint.CommandLine.FileTree
import WorkflowLint.CommandLine.Log
import WorkflowLint.CommandLine.Options
import WorkflowLint.Json

namespace WorkflowLint.CommandLine

/-! ## Files -/

/-- the extensions of files that are linted when their directory is -/
def extensions : List String := ["yaml", "yml", "mistral"]

/-- what follows the last point of a name that does not begin with it -/
def extension? (name : String) : Option String :=
  let tail := name.toList.reverse.takeWhile (· != '.')
  let before := name.toList.reverse.dropWhile (· != '.')
  if before.length ≤ 1 then none else some (String.ofList tail.reverse)

def hasLintExtension (name : String) : Bool :=
  match extension? name with
  | some extension => extensions.contains (String.ofList (extension.toList.map Char.toLower))
  | none => false

/-- a path with a name after it -/
def joinPath (directory name : String) : String :=
  if directory.endsWith "/" then directory ++ name else directory ++ "/" ++ name

/-- the files that a path leads to, each as it is shown and with what is in it -/
def filesAt (path : String) : Entry → List (String × Content)
  | .missing => []
  | .file content => [(path, content)]
  | .directory files =>
    let chosen := files.filter fun file => hasLintExtension file.1
    (chosen.mergeSort fun a b => a.1 ≤ b.1).map fun file => (joinPath path file.1, file.2)

/-! ## Reports -/

/-- what was found in one file that could be read -/
structure Report where
  file : String
  diagnostics : List Diagnostic
deriving DecidableEq, Repr

def Report.toJson (report : Report) : Json :=
  .obj [("file", .str report.file), ("diagnostics", .arr (report.diagnostics.map Diagnostic.toJson))]

/-- what a run prints, in two streams -/
structure Output where
  stdout : String
  stderr : String
deriving DecidableEq, Repr

def Output.append (a b : Output) : Output :=
  ⟨a.stdout ++ b.stdout, a.stderr ++ b.stderr⟩

instance : Append Output := ⟨Output.append⟩

def Output.empty : Output := ⟨"", ""⟩

def diagnosticLine (diagnostic : Diagnostic) : String :=
  "  [" ++ diagnostic.start.display ++ "] " ++ diagnostic.message ++ "\n"

/-- a report in text: a line of approval, or a heading and a line per diagnostic -/
def Report.toText (strict : Bool) (report : Report) : Output :=
  if report.diagnostics.isEmpty then
    if strict then Output.empty else ⟨"✔ " ++ report.file ++ " OK\n", ""⟩
  else
    ⟨"", "✖ " ++ report.file ++ " - " ++ toString report.diagnostics.length ++ " error(s)\n" ++
      String.join (report.diagnostics.map diagnosticLine)⟩

/-- the line about a path that leads nowhere -/
def missingLine (path : String) : String :=
  "File not found: " ++ path ++ "\n"

/-- the line about a file that cannot be read -/
def unreadableLine (file : String) : String :=
  "Failed to read " ++ file ++ ": stream did not contain valid UTF-8\n"

/-! ## Steps -/

/-- a run on its way: whether something has failed, the files that were collected, the reports on those that were read, what
is printed, and how many lines of that are the log's -/
structure Progress where
  failed : Bool
  files : List (String × Content)
  reports : List Report
  output : Output
  logged : Nat
deriving Repr

namespace Progress

def start : Progress :=
  ⟨false, [], [], Output.empty, 0⟩

def print (progress : Progress) (output : Output) : Progress :=
  { progress with output := progress.output ++ output }

/-- a record is written if it is wanted -/
def note (journal : Journal) (verbose : Bool) (record : Record) (progress : Progress) : Progress :=
  if journal.wants verbose record then
    { progress.print ⟨"", journal.line progress.logged record⟩ with logged := progress.logged + 1 }
  else progress

/-- the files that a path leads to are collected -/
def visitPath (look : String → Entry) (progress : Progress) (path : String) : Progress :=
  match look path with
  | .missing => { progress.print ⟨"", missingLine path⟩ with failed := true }
  | entry => { progress with files := progress.files ++ filesAt path entry }

/-- a file is read and linted, and in text its report is printed at once -/
def visitFile (journal : Journal) (options : Options) (progress : Progress) (file : String × Content) : Progress :=
  match file.2 with
  | .binary => { progress.print ⟨"", unreadableLine file.1⟩ with failed := true }
  | .text chars =>
    let (diagnostics, remark) := inspect chars
    let report : Report := ⟨file.1, diagnostics⟩
    let noted := progress.note journal options.verbose (.inspected remark)
    let shown := if options.format = .text then noted.print (report.toText options.strict) else noted
    { shown with failed := shown.failed || !diagnostics.isEmpty, reports := shown.reports ++ [report] }

/-- a run at its end: all paths are visited, how many files that makes is noted, and then all files are visited -/
def finish (journal : Journal) (look : String → Entry) (options : Options) : Progress :=
  let collected := options.paths.foldl (visitPath look) start
  let noted := collected.note journal options.verbose (.collected collected.files.length)
  collected.files.foldl (visitFile journal options) noted

end Progress

/-! ## Runs -/

/-- exit status and what is printed -/
structure Outcome where
  exit : Nat
  output : Output
deriving DecidableEq, Repr

/-- what is printed at the end: in JSON, all reports at once -/
def closing (format : Format) (reports : List Report) : String :=
  match format with
  | .text => ""
  | .json => (Json.arr (reports.map Report.toJson)).render 0 ++ "\n"

/-- a run with the given options, where `look` says what a path leads to -/
def runWith (journal : Journal) (look : String → Entry) (options : Options) : Outcome :=
  let progress := Progress.finish journal look options
  ⟨if progress.failed then 1 else 0, progress.output ++ ⟨closing options.format progress.reports, ""⟩⟩

/-- a run with the given arguments -/
def runIn (journal : Journal) (look : String → Entry) (args : List String) : Outcome :=
  match Options.read args with
  | .ok options => runWith journal look options
  | .error .help => ⟨0, ⟨helpText, ""⟩⟩
  | .error (.misuse misuse) => ⟨2, ⟨"", misuse.message⟩⟩

/-- a run in an environment that asks for no log -/
def run (look : String → Entry) (args : List String) : Outcome :=
  runIn .silent look args

end WorkflowLint.CommandLine
