/-
The command line: its options, how arguments are read, and what is said about arguments that do not fit.

Arguments are read from left to right. Short options may be joined, and the last of them may have its value attached; a
value of a long option follows it or an equals sign. After `--` everything is a path. Values that stand by themselves are
only looked at when the next option is known, so an unknown option after them is reported first.
-/

namespace WorkflowLint.CommandLine

inductive Format where
  | text
  | json
deriving DecidableEq, Repr

structure Options where
  paths : List String
  strict : Bool
  format : Format
  verbose : Bool
deriving DecidableEq, Repr

/-! ## The options there are -/

inductive Switch where
  | strict
  | format
  | verbose
  | help
deriving DecidableEq, Repr

namespace Switch

def all : List Switch :=
  [strict, format, verbose, help]

def long : Switch → String
  | strict => "strict"
  | format => "format"
  | verbose => "verbose"
  | help => "help"

def short : Switch → Char
  | strict => 's'
  | format => 'f'
  | verbose => 'v'
  | help => 'h'

def takesValue : Switch → Bool
  | format => true
  | _ => false

/-- how an option is written in messages -/
def shown : Switch → String
  | format => "--format <FORMAT>"
  | switch => "--" ++ switch.long

def ofLong? (name : String) : Option Switch :=
  all.find? fun switch => switch.long == name

def ofShort? (c : Char) : Option Switch :=
  all.find? fun switch => switch.short == c

end Switch

/-- how the paths are written in messages -/
def shownPaths : String := "[PATHS]..."

/-- the values that the format may have -/
def formats : List (String × Format) :=
  [("text", .text), ("json", .json)]

/-! ## Likeness of words -/

/-- Marks the first letter equal to `c` that is not marked yet and whose place lies from `low` to `high`; the letters are
those from place `j` on. -/
def markEqual (c : Char) (low high : Nat) : Nat → List (Char × Bool) → Option (List (Char × Bool))
  | _, [] => none
  | j, (d, taken) :: rest =>
    if low ≤ j ∧ j ≤ high ∧ c = d ∧ !taken then some ((d, true) :: rest)
    else (markEqual c low high (j + 1) rest).map fun rest => (d, taken) :: rest

/-- the letters of a word, from place `i` on, that find an equal one of the other word in reach, with the other's marks -/
def matched (reach : Nat) : Nat → List Char → List (Char × Bool) → List Char × List (Char × Bool)
  | _, [], other => ([], other)
  | i, c :: rest, other =>
    match markEqual c (i - reach) (i + reach) 0 other with
    | some other =>
      let (found, other) := matched reach (i + 1) rest other
      (c :: found, other)
    | none => matched reach (i + 1) rest other

/-- How alike two words are, as a fraction: the share of matched letters in each word and the share of matched letters
that are in order, added up. -/
def likeness (a b : List Char) : Nat × Nat :=
  let reach := max a.length b.length / 2 - 1
  let (found, other) := matched reach 0 a (b.map fun c => (c, false))
  let counterparts := (other.filter Prod.snd).map Prod.fst
  let m := found.length
  let moved := ((found.zip counterparts).filter fun (c, d) => c != d).length / 2
  (m * b.length * m + m * a.length * m + (m - moved) * a.length * b.length, a.length * b.length * m)

/-- whether the mean of the three shares is above seven tenths -/
def alike (a b : List Char) : Bool :=
  let (n, d) := likeness a b
  21 * d < 10 * n

/-- the candidate most like a word, the later of two that are equally so, if any is alike -/
def closest? (word : String) (candidates : List String) : Option String :=
  (candidates.filter fun candidate => alike word.toList candidate.toList).foldl
    (fun best candidate =>
      match best with
      | none => some candidate
      | some other =>
        let (n, d) := likeness word.toList candidate.toList
        let (m, e) := likeness word.toList other.toList
        if n * e < m * d then some other else some candidate)
    none

/-! ## Arguments that do not fit -/

inductive Misuse where
  /-- an unknown option; `similar` is a known one that is like it, `used` the options given before -/
  | unknown (argument : String) (similar : Option Switch) (used : List String)
  | invalidFormat (value : String)
  | missingFormat
  | repeated (switch : Switch)
  /-- a value for an option that has none -/
  | unneededValue (value : String) (switch : Switch) (used : List String)
  | emptyPath
deriving DecidableEq, Repr

def usage (parts : List String) : String :=
  "Usage: mistral-lint " ++ " ".intercalate parts

/-- the usage line, given what was used -/
def usageAfter (used : List String) : String :=
  if used.isEmpty then usage ["[OPTIONS]", shownPaths]
  else usage ((used.filter fun part => part != shownPaths) ++ [shownPaths])

/-- what was used, with one more option -/
def usedWith (used : List String) (switch : Switch) : List String :=
  if used.contains switch.shown then used else used ++ [switch.shown]

def possibleValues : String :=
  "\n  [possible values: " ++ ", ".intercalate (formats.map Prod.fst) ++ "]"

def similarTip (noun value : String) : String :=
  "\n\n  tip: a similar " ++ noun ++ " exists: '" ++ value ++ "'"

def Misuse.body : Misuse → String
  | unknown argument (some similar) used =>
    "unexpected argument '" ++ argument ++ "' found" ++ similarTip "argument" ("--" ++ similar.long) ++ "\n\n" ++
      usageAfter (usedWith used similar)
  | unknown argument none used =>
    "unexpected argument '" ++ argument ++ "' found\n\n  tip: to pass '" ++ argument ++ "' as a value, use '-- " ++
      argument ++ "'\n\n" ++ usageAfter used
  | invalidFormat value =>
    "invalid value '" ++ value ++ "' for '" ++ Switch.format.shown ++ "'" ++ possibleValues ++
      (match closest? value (formats.map Prod.fst) with
        | some similar => similarTip "value" similar
        | none => "")
  | missingFormat =>
    "a value is required for '" ++ Switch.format.shown ++ "' but none was supplied" ++ possibleValues
  | repeated switch => "the argument '" ++ switch.shown ++ "' cannot be used multiple times\n\n" ++ usageAfter []
  | unneededValue value switch used =>
    "unexpected value '" ++ value ++ "' for '" ++ switch.shown ++ "' found; no more were expected\n\n" ++
      usageAfter (usedWith used switch)
  | emptyPath => "a value is required for '" ++ shownPaths ++ "' but none was supplied"

def Misuse.message (misuse : Misuse) : String :=
  "error: " ++ misuse.body ++ "\n\nFor more information, try '--help'.\n"

def helpText : String :=
  "\n".intercalate
    ["Lint Mistral v2 workflow definitions and their YAQL expressions",
      "",
      "Usage: mistral-lint [OPTIONS] [PATHS]...",
      "",
      "Arguments:",
      "  [PATHS]...  Files or directories to lint (directories are scanned one level deep) [default: .]",
      "",
      "Options:",
      "  -s, --strict           Only report files with errors",
      "  -f, --format <FORMAT>  Output format [default: text] [possible values: text, json]",
      "  -v, --verbose          Debug logging when RUST_LOG is unset",
      "  -h, --help             Print help",
      ""]

/-! ## Reading arguments -/

/-- why reading stops early -/
inductive Stop where
  | help
  | misuse (misuse : Misuse)
deriving DecidableEq, Repr

/-- values that stand by themselves and are not looked at yet -/
inductive Pending where
  | nothing
  /-- the format's value, if it has come -/
  | format (value : Option String)
  /-- paths next to each other -/
  | paths (values : List String)
deriving DecidableEq, Repr

/-- what has been read so far -/
structure State where
  paths : List String
  strict : Bool
  format : Option Format
  verbose : Bool
  pending : Pending
  /-- what was used, in order, as it is shown -/
  used : List String

def State.start : State := ⟨[], false, none, false, .nothing, []⟩

namespace State

def use (state : State) (shown : String) : State :=
  if state.used.contains shown then state else { state with used := state.used ++ [shown] }

/-- sets the format to a value -/
def setFormat (state : State) (value : Option String) : Except Stop State :=
  match value with
  | none => .error (.misuse .missingFormat)
  | some value =>
    if state.format.isSome then .error (.misuse (.repeated .format))
    else if value = "" then .error (.misuse .missingFormat)
    else
      match formats.lookup value with
      | some format => .ok { state.use Switch.format.shown with format := some format }
      | none => .error (.misuse (.invalidFormat value))

/-- takes paths, none of which may be empty -/
def addPaths (state : State) (values : List String) : Except Stop State :=
  if values.contains "" then .error (.misuse .emptyPath)
  else .ok { state.use shownPaths with paths := state.paths ++ values }

/-- looks at the values that stand by themselves -/
def settle (state : State) : Except Stop State :=
  match state.pending with
  | .nothing => .ok state
  | .format value => { state with pending := .nothing }.setFormat value
  | .paths values => { state with pending := .nothing }.addPaths values

/-- What is used so far, for a message about an option that does not fit. The values just before it count, whether they are
any good or not; a second format cancels the first. -/
def usedNow (state : State) : List String :=
  match state.pending with
  | .nothing => state.used
  | .format none => state.used
  | .format (some _) =>
    if state.format.isSome then state.used.erase Switch.format.shown else (state.use Switch.format.shown).used
  | .paths _ => (state.use shownPaths).used

/-- turns on an option without value -/
def flag (state : State) (switch : Switch) : Except Stop State := do
  let state ← state.settle
  match switch with
  | .help => .error .help
  | .strict =>
    if state.strict then .error (.misuse (.repeated .strict))
    else .ok { state.use switch.shown with strict := true }
  | .verbose =>
    if state.verbose then .error (.misuse (.repeated .verbose))
    else .ok { state.use switch.shown with verbose := true }
  | .format => .ok { state with pending := .format none }

/-- a value that is attached to its option -/
def attached (state : State) (value : String) : Except Stop State := do
  let state ← state.settle
  state.setFormat (some value)

/-- a path, which joins the ones just before it -/
def path (state : State) (value : String) : Except Stop State :=
  match state.pending with
  | .paths values => .ok { state with pending := .paths (values ++ [value]) }
  | _ => do return { ← state.settle with pending := .paths [value] }

/-- joined short options -/
def shorts (state : State) : List Char → Except Stop State
  | [] => .ok state
  | c :: rest =>
    match Switch.ofShort? c with
    | none => .error (.misuse (.unknown ("-" ++ String.singleton c) none []))
    | some switch =>
      if switch.takesValue then
        match rest with
        | [] => state.flag switch
        | '=' :: value => state.attached (String.ofList value)
        | value => state.attached (String.ofList value)
      else
        match state.flag switch with
        | .ok state => shorts state rest
        | .error stop => .error stop

/-- a long option, given without its dashes -/
def long (state : State) (name : String) (value : Option String) : Except Stop State :=
  match Switch.ofLong? name with
  | none =>
    let similar := (closest? name (Switch.all.map Switch.long)).bind Switch.ofLong?
    .error (.misuse (.unknown ("--" ++ name) similar state.usedNow))
  | some switch =>
    match value with
    | none => state.flag switch
    | some value =>
      if switch.takesValue then state.attached value
      else .error (.misuse (.unneededValue value switch state.used))

/-- one argument that comes before any `--` -/
def argument (state : State) (arg : String) : Except Stop State :=
  match arg.toList with
  | '-' :: '-' :: body =>
    let name := body.takeWhile (· != '=')
    let value := match body.dropWhile (· != '=') with | _ :: rest => some (String.ofList rest) | [] => none
    state.long (String.ofList name) value
  | '-' :: c :: rest => state.shorts (c :: rest)
  | _ =>
    match state.pending with
    | .format none => .ok { state with pending := .format (some arg) }
    | _ => state.path arg

end State

/-- reads arguments, which are all paths once `--` was read -/
def readFrom : Bool → State → List String → Except Stop State
  | _, state, [] => state.settle
  | true, state, arg :: rest => do readFrom true (← state.path arg) rest
  | false, state, arg :: rest =>
    if arg = "--" then readFrom true state rest
    else do readFrom false (← state.argument arg) rest

/-- the options that a list of arguments gives; without a path it is the current directory -/
def Options.read (args : List String) : Except Stop Options := do
  let state ← readFrom false State.start args
  return ⟨if state.paths.isEmpty then ["."] else state.paths, state.strict, state.format.getD .text, state.verbose⟩

end WorkflowLint.CommandLine
