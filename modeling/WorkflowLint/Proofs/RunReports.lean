/-
What a run of the command line says, and how it ends.

A run is described here by what it says, one `Notice` at a time: a path leads nowhere, a file cannot be read, a file is in
order, or a file has so many errors and these are they. Between them come the records for the log: `told` writes those that are
wanted and passes over the others. In text, approvals go to standard output and all the rest to standard error (`approval?`,
`complaints`). In JSON, standard output has the reports of all files at once, and standard error has only the paths and files of
which there is none (`refusal?`).

Which files these are is said by `Collects`, without the functions that find them: a file by itself, of a directory the files
whose name is one for linting (`IsLintName`), in the order of their names, and nothing where a path leads nowhere.

`Reached` says how far a run has come: whether it has failed, what was reported and what was said. A record, a path and a file
each add something of their own to that, and so, by induction, do all paths and all files.

Results:
- `Reached.visitPath`, `Reached.visitFile`: the steps.
- `Reached.visitPaths`, `Reached.visitFiles`: the runs over all paths and over all files.
- `exit_eq_one_iff`: when a run fails.
- `run_reports`: all of this for any arguments that are accepted and any log, and what options leave as it is.
-/
import Mathlib.Data.List.Forall2
import Mathlib.Data.List.TakeWhile
import WorkflowLint.CommandLine.Run
import WorkflowLint.Proofs.Arguments
import WorkflowLint.Proofs.DiagnosticJson
import WorkflowLint.Proofs.JsonText

namespace WorkflowLint.CommandLine

/-! ## Files -/

/-- a name that ends in one of the known extensions, in letters of either case, with something before the point -/
def IsLintName (name : String) : Prop :=
  ∃ stem ending, name.toList = stem ++ '.' :: ending ∧ stem ≠ [] ∧ '.' ∉ ending ∧
    String.ofList (ending.map Char.toLower) ∈ extensions

theorem extension?_eq_some_iff {name ending : String} :
    extension? name = some ending ↔
      ∃ stem, name.toList = stem ++ '.' :: ending.toList ∧ stem ≠ [] ∧ '.' ∉ ending.toList := by
  have hpoint : ∀ {text : List Char}, '.' ∉ text → ∀ c ∈ text, (c != '.') = true := by
    intro text hno c hc
    rw [bne_iff_ne]
    rintro rfl
    exact hno hc
  unfold extension?
  constructor
  · intro h
    -- from the end of the name up to the last point, and from there to the front
    have hsplit := List.takeWhile_append_dropWhile (p := (· != '.')) (l := name.toList.reverse)
    by_cases hshort : (name.toList.reverse.dropWhile (· != '.')).length ≤ 1
    · rw [if_pos hshort] at h
      cases h
    · rw [if_neg hshort] at h
      obtain rfl := Option.some.inj h
      cases hdrop : name.toList.reverse.dropWhile (· != '.') with
      | nil => simp [hdrop] at hshort
      | cons c stem =>
        have hhead := List.head?_dropWhile_not (· != '.') name.toList.reverse
        rw [hdrop] at hhead hsplit hshort
        obtain rfl : c = '.' := by simpa using hhead
        refine ⟨stem.reverse, ?_, ?_, ?_⟩
        · have hname := congrArg List.reverse hsplit
          rw [List.reverse_reverse] at hname
          simpa using hname.symm
        · rintro hnil
          rw [List.reverse_eq_nil_iff] at hnil
          simp [hnil] at hshort
        · intro hmem
          rw [String.toList_ofList, List.mem_reverse] at hmem
          simpa using List.mem_takeWhile_imp hmem
  · rintro ⟨stem, hname, hstem, hno⟩
    have hreverse : name.toList.reverse = ending.toList.reverse ++ '.' :: stem.reverse := by
      rw [hname]
      simp
    have hending : ∀ c ∈ ending.toList.reverse, (c != '.') = true := by
      intro c hc
      exact hpoint hno c (List.mem_reverse.1 hc)
    have hlength : 0 < stem.length := List.length_pos_iff.2 hstem
    rw [hreverse, List.takeWhile_append_of_pos hending, List.dropWhile_append_of_pos hending]
    simp
    omega

theorem hasLintExtension_iff {name : String} : hasLintExtension name = true ↔ IsLintName name := by
  unfold hasLintExtension IsLintName
  constructor
  · intro h
    cases hending : extension? name with
    | none => simp [hending] at h
    | some ending =>
      obtain ⟨stem, hname, hstem, hno⟩ := extension?_eq_some_iff.1 hending
      rw [hending] at h
      exact ⟨stem, ending.toList, hname, hstem, hno, List.contains_iff_mem.1 h⟩
  · rintro ⟨stem, ending, hname, hstem, hno, hknown⟩
    have hending : extension? name = some (String.ofList ending) := by
      rw [extension?_eq_some_iff, String.toList_ofList]
      exact ⟨stem, hname, hstem, hno⟩
    rw [hending]
    simpa using hknown

instance (name : String) : Decidable (IsLintName name) :=
  decidable_of_iff _ hasLintExtension_iff

/-- the files that are linted for a path, given what it leads to -/
inductive Collects (path : String) : Entry → List (String × Content) → Prop where
  | missing : Collects path .missing []
  | file (content : Content) : Collects path (.file content) [(path, content)]
  | directory {files chosen : List (String × Content)} :
      chosen.Perm (files.filter fun file => IsLintName file.1) → (chosen.Pairwise fun a b => a.1 ≤ b.1) →
      Collects path (.directory files) (chosen.map fun file => (joinPath path file.1, file.2))

theorem collects_filesAt (path : String) (entry : Entry) : Collects path entry (filesAt path entry) := by
  cases entry with
  | missing => exact .missing
  | file content => exact .file content
  | directory files =>
    apply Collects.directory
    · have hfilter : (files.filter fun file => hasLintExtension file.1) = files.filter fun file => IsLintName file.1 := by
        apply List.filter_congr
        intro file _
        rw [Bool.eq_iff_iff, decide_eq_true_iff, hasLintExtension_iff]
      rw [← hfilter]
      exact List.mergeSort_perm _ _
    · have hsorted := @List.pairwise_mergeSort _ (fun a b : String × Content => decide (a.1 ≤ b.1))
        (by
          intro a b c hab hbc
          rw [decide_eq_true_iff] at hab hbc ⊢
          exact String.le_trans hab hbc)
        (by
          intro a b
          simp only [Bool.or_eq_true, decide_eq_true_iff]
          exact String.le_total a.1 b.1)
        (files.filter fun file => hasLintExtension file.1)
      simpa only [decide_eq_true_eq] using hsorted

/-- the files that the paths lead to, in order -/
def filesOf (look : String → Entry) (paths : List String) : List (String × Content) :=
  paths.flatMap fun path => filesAt path (look path)

theorem filesOf_collects (look : String → Entry) (paths : List String) :
    ∃ listings, List.Forall₂ (fun path listing => Collects path (look path) listing) paths listings ∧
      filesOf look paths = listings.flatten := by
  refine ⟨paths.map fun path => filesAt path (look path), ?_, rfl⟩
  rw [List.forall₂_map_right_iff, List.forall₂_same]
  intro path _
  exact collects_filesAt path (look path)

/-! ## Notices -/

/-- one thing that a run says -/
inductive Notice where
  /-- a path leads nowhere -/
  | missing (path : String)
  /-- a file is no UTF-8 -/
  | unreadable (file : String)
  /-- nothing is wrong with a file -/
  | approval (file : String)
  /-- a file has so many errors -/
  | heading (file : String) (count : Nat)
  /-- one of the errors -/
  | finding (diagnostic : Diagnostic)
  /-- something for the log -/
  | note (record : Record)

namespace Notice

/-- the line that says it; what is for the log says nothing of itself -/
def text : Notice → String
  | missing path => "File not found: " ++ path ++ "\n"
  | unreadable file => "Failed to read " ++ file ++ ": stream did not contain valid UTF-8\n"
  | approval file => "✔ " ++ file ++ " OK\n"
  | heading file count => "✖ " ++ file ++ " - " ++ toString count ++ " error(s)\n"
  | finding diagnostic => "  [" ++ diagnostic.start.display ++ "] " ++ diagnostic.message ++ "\n"
  | note _ => ""

/-- whether it is a line of the log -/
def isLogged (journal : Journal) (verbose : Bool) : Notice → Bool
  | note record => journal.wants verbose record
  | _ => false

/-- the line that says it where the log may be written to, and has `n` lines -/
def line (journal : Journal) (verbose : Bool) (n : Nat) : Notice → String
  | note record => if journal.wants verbose record then journal.line n record else ""
  | notice => notice.text

end Notice

/-- notices line by line -/
def said (notices : List Notice) : String :=
  String.join (notices.map Notice.text)

/-- notices line by line, with those lines of the log among them that are wanted, numbered from `n` -/
def told (journal : Journal) (verbose : Bool) (n : Nat) : List Notice → String
  | [] => ""
  | notice :: rest =>
    notice.line journal verbose n ++
      told journal verbose (if notice.isLogged journal verbose then n + 1 else n) rest

/-- the paths that lead nowhere -/
def missingNotices (look : String → Entry) (paths : List String) : List Notice :=
  (paths.filter fun path => look path = .missing).map .missing

/-- a file that can be read and has no diagnostics, unless the run is strict -/
def approval? (strict : Bool) (file : String × Content) : Option Notice :=
  match file.2 with
  | .binary => none
  | .text chars => if lint chars = [] ∧ strict = false then some (.approval file.1) else none

/-- what is wrong with a file: it cannot be read, or it has diagnostics, in order of report -/
def complaints (file : String × Content) : List Notice :=
  match file.2 with
  | .binary => [.unreadable file.1]
  | .text chars =>
    match lint chars with
    | [] => []
    | found => .heading file.1 found.length :: found.map .finding

/-- a file that cannot be read -/
def refusal? (file : String × Content) : Option Notice :=
  match file.2 with
  | .binary => some (.unreadable file.1)
  | .text _ => none

/-- what is noted about a file that can be read -/
def remark? (file : String × Content) : Option Notice :=
  match file.2 with
  | .binary => none
  | .text chars => some (.note (.inspected (inspect chars).2))

/-- the report about a file that can be read -/
def report? (file : String × Content) : Option Report :=
  match file.2 with
  | .binary => none
  | .text chars => some ⟨file.1, lint chars⟩

/-- whether a file makes a run fail -/
def isBad (file : String × Content) : Bool :=
  match file.2 with
  | .binary => true
  | .text chars => !(lint chars).isEmpty

/-- what a file adds to standard output when its turn comes -/
def approvals (options : Options) (file : String × Content) : List Notice :=
  match options.format with
  | .text => (approval? options.strict file).toList
  | .json => []

/-- what there is to object to a file: in JSON, what is found in it is left to the report -/
def objections (format : Format) (file : String × Content) : List Notice :=
  match format with
  | .text => complaints file
  | .json => (refusal? file).toList

/-- all that a run has for standard error: the paths that lead nowhere, and then, file by file, what is noted about it and
what there is to object -/
def transcript (look : String → Entry) (format : Format) (paths : List String) : List Notice :=
  missingNotices look paths ++ .note (.collected (filesOf look paths).length) ::
    (filesOf look paths).flatMap fun file => (remark? file).toList ++ objections format file

theorem said_append (a b : List Notice) : said (a ++ b) = said a ++ said b := by
  rw [said, List.map_append, String.join_append]
  rfl

theorem said_cons (notice : Notice) (rest : List Notice) : said (notice :: rest) = notice.text ++ said rest := by
  rw [said, List.map_cons, String.join_cons]
  rfl

theorem said_singleton (notice : Notice) : said [notice] = notice.text := by
  rw [said_cons]
  exact String.append_empty

section

variable (journal : Journal) (verbose : Bool)

/-- the lines of the log count on from one part of what is told to the next -/
theorem told_append (n : Nat) (a b : List Notice) :
    told journal verbose n (a ++ b) =
      told journal verbose n a ++ told journal verbose (n + a.countP (Notice.isLogged journal verbose)) b := by
  induction a generalizing n with
  | nil => exact String.empty_append.symm
  | cons notice a ih =>
    rw [List.cons_append, told, told, ih, List.countP_cons, String.append_assoc]
    by_cases hlogged : notice.isLogged journal verbose = true
    · simp only [hlogged, if_true, Nat.add_assoc, Nat.add_comm]
    · simp only [hlogged, if_false, Nat.add_zero, Bool.false_eq_true]

/-- Where no record is wanted, only the other notices are told. -/
theorem told_of_forall_not {notices : List Notice} (n : Nat)
    (h : ∀ notice ∈ notices, notice.isLogged journal verbose = false) : told journal verbose n notices = said notices := by
  induction notices generalizing n with
  | nil => rfl
  | cons notice rest ih =>
    obtain ⟨hnotice, hrest⟩ := List.forall_mem_cons.1 h
    have hline : notice.line journal verbose n = notice.text := by
      cases notice with
      | note record =>
        have hunwanted : journal.wants verbose record = false := hnotice
        rw [Notice.line, hunwanted]
        rfl
      | missing | unreadable | approval | heading | finding => rfl
    rw [told, said_cons, hline, ih _ hrest]

end

theorem said_flatMap_congr {α : Type} {items : List α} {f g : α → List Notice} (h : ∀ item, said (f item) = said (g item)) :
    said (items.flatMap f) = said (items.flatMap g) := by
  induction items with
  | nil => rfl
  | cons item items ih => rw [List.flatMap_cons, List.flatMap_cons, said_append, said_append, h, ih]

/-! ## How far a run has come -/

/-- whether a run has failed so far, what it has reported, and what it has said in either stream -/
structure Reached (journal : Journal) (verbose : Bool) (progress : Progress) (failed : Bool) (reports : List Report)
    (out err : List Notice) : Prop where
  failed : progress.failed = failed
  reports : progress.reports = reports
  stdout : progress.output.stdout = said out
  stderr : progress.output.stderr = told journal verbose 0 err
  logged : progress.logged = err.countP (Notice.isLogged journal verbose)

section

variable {journal : Journal} {verbose : Bool} {progress : Progress} {failed : Bool} {reports : List Report}
  {out err : List Notice}

theorem reached_start : Reached journal verbose .start false [] [] [] :=
  ⟨rfl, rfl, rfl, rfl, rfl⟩

/-- Notices that are not for the log are printed as they are. -/
theorem Reached.print (h : Reached journal verbose progress failed reports out err) (more : List Notice)
    {notices : List Notice} (hplain : ∀ notice ∈ notices, notice.isLogged journal verbose = false) :
    Reached journal verbose (progress.print ⟨said more, said notices⟩) failed reports (out ++ more) (err ++ notices) where
  failed := h.failed
  reports := h.reports
  stdout := by
    rw [said_append, ← h.stdout]
    rfl
  stderr := by
    rw [told_append, told_of_forall_not _ _ _ hplain, ← h.stderr]
    rfl
  logged := by
    have hnone : notices.countP (Notice.isLogged journal verbose) = 0 := by
      rw [List.countP_eq_zero]
      intro notice hnotice
      rw [hplain notice hnotice]
      exact Bool.false_ne_true
    rw [List.countP_append, hnone, ← h.logged]
    rfl

/-- A record that is wanted becomes the next line of the log. -/
theorem Reached.note (h : Reached journal verbose progress failed reports out err) (record : Record) :
    Reached journal verbose (progress.note journal verbose record) failed reports out (err ++ [.note record]) := by
  have htold : told journal verbose 0 (err ++ [.note record]) =
      progress.output.stderr ++ if journal.wants verbose record then journal.line progress.logged record else "" := by
    rw [told_append, ← h.stderr, Nat.zero_add, ← h.logged, told, told, String.append_empty]
    rfl
  have hcount : (err ++ [Notice.note record]).countP (Notice.isLogged journal verbose) =
      progress.logged + if journal.wants verbose record then 1 else 0 := by
    rw [List.countP_append, ← h.logged, List.countP_singleton]
    rfl
  unfold Progress.note
  by_cases hwanted : journal.wants verbose record = true
  · rw [if_pos hwanted] at htold hcount ⊢
    refine ⟨h.failed, h.reports, ?_, htold.symm, hcount.symm⟩
    rw [← h.stdout]
    exact String.append_empty
  · rw [if_neg hwanted] at htold hcount ⊢
    rw [String.append_empty] at htold
    exact ⟨h.failed, h.reports, h.stdout, htold.symm, hcount.symm⟩

/-- Where a run stands does not depend on the files it has collected. -/
theorem Reached.collect (h : Reached journal verbose progress failed reports out err) (files : List (String × Content)) :
    Reached journal verbose { progress with files := files } failed reports out err :=
  ⟨h.failed, h.reports, h.stdout, h.stderr, h.logged⟩

theorem Reached.fail (h : Reached journal verbose progress failed reports out err) :
    Reached journal verbose { progress with failed := true } true reports out err :=
  ⟨rfl, h.reports, h.stdout, h.stderr, h.logged⟩

theorem Reached.report (h : Reached journal verbose progress failed reports out err) (bad : Bool) (report : Report) :
    Reached journal verbose { progress with failed := progress.failed || bad, reports := progress.reports ++ [report] }
      (failed || bad) (reports ++ [report]) out err where
  failed := by rw [← h.failed]
  reports := by rw [← h.reports]
  stdout := h.stdout
  stderr := h.stderr
  logged := h.logged

/-- **A path** that leads nowhere is a failure, and is said at once. -/
theorem Reached.visitPath (h : Reached journal verbose progress failed reports out err) (look : String → Entry)
    (path : String) :
    Reached journal verbose (progress.visitPath look path) (failed || look path = .missing) reports out
      (err ++ missingNotices look [path]) := by
  unfold Progress.visitPath
  cases hentry : look path with
  | missing =>
    have hnotices : missingNotices look [path] = [.missing path] := by simp [missingNotices, hentry]
    have hplain : ∀ notice ∈ [Notice.missing path], notice.isLogged journal verbose = false := by simp [Notice.isLogged]
    have hprinted := (h.print [] hplain).fail
    rw [said_singleton, List.append_nil] at hprinted
    rw [hnotices, decide_eq_true rfl, Bool.or_true]
    exact hprinted
  | file content => simpa [missingNotices, hentry] using h.collect _
  | directory files => simpa [missingNotices, hentry] using h.collect _

/-- A report in text is a line of approval, or says how many errors there are and each of them. -/
theorem toText_eq (strict : Bool) (name : String) (chars : List Char) :
    (⟨name, lint chars⟩ : Report).toText strict =
      ⟨said (approval? strict (name, .text chars)).toList, said (complaints (name, .text chars))⟩ := by
  simp only [Report.toText, approval?, complaints]
  cases hfound : lint chars with
  | nil =>
    cases strict with
    | true => rfl
    | false =>
      simp only [List.isEmpty_nil, if_true, and_self, Option.toList_some, said_singleton]
      rfl
  | cons first rest =>
    have hlines : said ((first :: rest).map .finding) = String.join ((first :: rest).map diagnosticLine) := by
      rw [said, List.map_map]
      rfl
    simp only [said_cons, hlines]
    rfl

/-- Complaints are not for the log. -/
theorem isLogged_complaints {name : String} {chars : List Char} {notice : Notice}
    (h : notice ∈ complaints (name, .text chars)) : notice.isLogged journal verbose = false := by
  simp only [complaints] at h
  split at h
  case h_1 => cases h
  case h_2 =>
    rcases List.mem_cons.1 h with rfl | h
    · rfl
    · obtain ⟨diagnostic, -, rfl⟩ := List.mem_map.1 h
      rfl

/-- **A file** that cannot be read is a failure, and so is one in which something is found. Of any that can be read there is a
report. -/
theorem Reached.visitFile {options : Options} (h : Reached journal options.verbose progress failed reports out err)
    (file : String × Content) :
    Reached journal options.verbose (progress.visitFile journal options file) (failed || isBad file)
      (reports ++ (report? file).toList) (out ++ approvals options file)
      (err ++ ((remark? file).toList ++ objections options.format file)) := by
  obtain ⟨name, content⟩ := file
  cases content with
  | binary =>
    have hplain : ∀ notice ∈ [Notice.unreadable name], notice.isLogged journal options.verbose = false := by
      simp [Notice.isLogged]
    have hprinted := (h.print [] hplain).fail
    rw [said_singleton, List.append_nil] at hprinted
    have hnone : approvals options (name, .binary) = [] ∧
        objections options.format (name, .binary) = [.unreadable name] := by
      unfold approvals objections
      cases options.format with
      | text => exact ⟨rfl, rfl⟩
      | json => exact ⟨rfl, rfl⟩
    rw [hnone.1, hnone.2, List.append_nil, isBad, Bool.or_true, report?, Option.toList_none, List.append_nil, remark?,
      Option.toList_none, List.nil_append]
    exact hprinted
  | text chars =>
    have hnoted := h.note (.inspected (inspect chars).2)
    unfold approvals objections Progress.visitFile
    cases hformat : options.format with
    | text =>
      have hshown := hnoted.print (approval? options.strict (name, .text chars)).toList
        fun _ => @isLogged_complaints journal options.verbose name chars _
      rw [← toText_eq, List.append_assoc] at hshown
      exact hshown.report (!(lint chars).isEmpty) ⟨name, lint chars⟩
    | json =>
      rw [List.append_nil]
      exact hnoted.report (!(lint chars).isEmpty) ⟨name, lint chars⟩

/-- **All paths**, one after the other. -/
theorem Reached.visitPaths (h : Reached journal verbose progress failed reports out err) (look : String → Entry)
    (paths : List String) :
    Reached journal verbose (paths.foldl (Progress.visitPath look) progress)
      (failed || paths.any fun path => look path = .missing) reports out (err ++ missingNotices look paths) := by
  induction paths generalizing progress failed err with
  | nil => simpa [missingNotices] using h
  | cons path paths ih =>
    have hnotices : missingNotices look (path :: paths) = missingNotices look [path] ++ missingNotices look paths := by
      rw [missingNotices, ← List.singleton_append, List.filter_append, List.map_append]
      rfl
    rw [List.foldl_cons, List.any_cons, ← Bool.or_assoc, hnotices, ← List.append_assoc]
    exact ih (h.visitPath look path)

/-- **All files**, one after the other. -/
theorem Reached.visitFiles {options : Options} (h : Reached journal options.verbose progress failed reports out err)
    (files : List (String × Content)) :
    Reached journal options.verbose (files.foldl (Progress.visitFile journal options) progress) (failed || files.any isBad)
      (reports ++ files.filterMap report?) (out ++ files.flatMap (approvals options))
      (err ++ files.flatMap fun file => (remark? file).toList ++ objections options.format file) := by
  induction files generalizing progress failed reports out err with
  | nil => simpa using h
  | cons file files ih =>
    have hreports : (file :: files).filterMap report? = (report? file).toList ++ files.filterMap report? := by
      rw [List.filterMap_eq_flatMap_toList, List.flatMap_cons, ← List.filterMap_eq_flatMap_toList]
    rw [List.foldl_cons, List.any_cons, ← Bool.or_assoc, hreports, List.flatMap_cons, List.flatMap_cons, ← List.append_assoc,
      ← List.append_assoc, ← List.append_assoc]
    exact ih (h.visitFile file)

end

/-- The files are collected path by path. -/
theorem files_visitPaths (look : String → Entry) (paths : List String) (progress : Progress) :
    (paths.foldl (Progress.visitPath look) progress).files = progress.files ++ filesOf look paths := by
  induction paths generalizing progress with
  | nil => exact (List.append_nil _).symm
  | cons path paths ih =>
    have hstep : (progress.visitPath look path).files = progress.files ++ filesAt path (look path) := by
      unfold Progress.visitPath
      cases look path with
      | missing => exact (List.append_nil _).symm
      | file content => rfl
      | directory files => rfl
    rw [List.foldl_cons, ih, hstep, List.append_assoc]
    rfl

/-! ## The whole run -/

theorem reached_finish (journal : Journal) (look : String → Entry) (options : Options) :
    Reached journal options.verbose (Progress.finish journal look options)
      ((options.paths.any fun path => look path = .missing) || (filesOf look options.paths).any isBad)
      ((filesOf look options.paths).filterMap report?) ((filesOf look options.paths).flatMap (approvals options))
      (transcript look options.format options.paths) := by
  have hfiles : (options.paths.foldl (Progress.visitPath look) .start).files = filesOf look options.paths :=
    files_visitPaths look options.paths .start
  have hcollected := (@reached_start journal options.verbose).visitPaths look options.paths
  have hlinted := (hcollected.note (.collected (filesOf look options.paths).length)).visitFiles (filesOf look options.paths)
  rw [Bool.false_or, List.nil_append, List.nil_append, List.nil_append, List.append_assoc] at hlinted
  simp only [Progress.finish, hfiles]
  exact hlinted

section

variable (journal : Journal) (look : String → Entry) (options : Options)

/-- **When a run fails.** A path leads nowhere, a file cannot be read, or something is found in a file. -/
theorem exit_eq_one_iff :
    (runWith journal look options).exit = 1 ↔
      (∃ path ∈ options.paths, look path = .missing) ∨
      (∃ file ∈ filesOf look options.paths, file.2 = .binary) ∨
      ∃ file ∈ filesOf look options.paths, ∃ chars, file.2 = .text chars ∧ lint chars ≠ [] := by
  have hexit : (runWith journal look options).exit = 1 ↔ (Progress.finish journal look options).failed = true := by
    show (if (Progress.finish journal look options).failed = true then 1 else 0) = 1 ↔ _
    cases (Progress.finish journal look options).failed with
    | true => simp
    | false => simp
  rw [hexit, (reached_finish journal look options).failed, Bool.or_eq_true, List.any_eq_true, List.any_eq_true]
  simp only [decide_eq_true_eq]
  apply or_congr_right
  constructor
  · rintro ⟨⟨name, content⟩, hmem, hbad⟩
    cases content with
    | binary => exact Or.inl ⟨_, hmem, rfl⟩
    | text chars => exact Or.inr ⟨_, hmem, chars, rfl, by simpa [isBad] using hbad⟩
  · rintro (⟨⟨name, content⟩, hmem, rfl⟩ | ⟨⟨name, content⟩, hmem, chars, rfl, hfound⟩)
    · exact ⟨_, hmem, rfl⟩
    · exact ⟨_, hmem, by simpa [isBad] using hfound⟩

theorem exit_eq_zero_or_one : (runWith journal look options).exit = 0 ∨ (runWith journal look options).exit = 1 := by
  show (if (Progress.finish journal look options).failed = true then 1 else 0) = 0 ∨
    (if (Progress.finish journal look options).failed = true then 1 else 0) = 1
  cases (Progress.finish journal look options).failed with
  | true => exact Or.inr rfl
  | false => exact Or.inl rfl

theorem stdout_eq :
    (runWith journal look options).output.stdout =
      said ((filesOf look options.paths).flatMap (approvals options)) ++
        closing options.format ((filesOf look options.paths).filterMap report?) := by
  rw [← (reached_finish journal look options).stdout, ← (reached_finish journal look options).reports]
  rfl

theorem stderr_eq :
    (runWith journal look options).output.stderr =
      told journal options.verbose 0 (transcript look options.format options.paths) := by
  rw [← (reached_finish journal look options).stderr]
  exact String.append_empty

theorem stdout_text (hformat : options.format = .text) :
    (runWith journal look options).output.stdout =
      said ((filesOf look options.paths).filterMap (approval? options.strict)) := by
  have happrovals : approvals options = fun file => (approval? options.strict file).toList := by
    funext file
    rw [approvals, hformat]
  rw [stdout_eq, happrovals, hformat, ← List.filterMap_eq_flatMap_toList]
  exact String.append_empty

theorem stdout_json (hformat : options.format = .json) :
    (runWith journal look options).output.stdout =
      (Json.arr (((filesOf look options.paths).filterMap report?).map Report.toJson)).render 0 ++ "\n" := by
  have happrovals : approvals options = fun _ => [] := by
    funext file
    rw [approvals, hformat]
  have hnone : said ((filesOf look options.paths).flatMap fun _ => []) = "" := by
    rw [List.flatMap_eq_nil_iff.2 fun _ _ => rfl]
    rfl
  rw [stdout_eq, happrovals, hformat, hnone]
  exact String.empty_append

end

/-! ## Without a log -/

theorem said_remark? (file : String × Content) : said (remark? file).toList = "" := by
  obtain ⟨name, content⟩ := file
  cases content with
  | binary => rfl
  | text chars => exact said_singleton _

/-- What is not for the log is said, whether or not the log is written. -/
theorem said_transcript (look : String → Entry) (format : Format) (paths : List String) :
    said (transcript look format paths) =
      said (missingNotices look paths ++ (filesOf look paths).flatMap (objections format)) := by
  have hrecord : ∀ record, (Notice.note record).text = "" := fun _ => rfl
  rw [transcript, said_append, said_append, said_cons, hrecord, String.empty_append]
  refine congrArg (said (missingNotices look paths) ++ ·) (said_flatMap_congr fun file => ?_)
  rw [said_append, said_remark?, String.empty_append]

/-- Nothing is wanted if the environment asks for nothing, or says nothing and the run is not verbose. -/
theorem not_wants {journal : Journal} {verbose : Bool} (hunset : journal.wanted? = none → verbose = false)
    (hset : ∀ wanted, journal.wanted? = some wanted → ∀ record, wanted record = false) (record : Record) :
    journal.wants verbose record = false := by
  unfold Journal.wants
  cases hwanted : journal.wanted? with
  | none => exact hunset hwanted
  | some wanted => exact hset wanted hwanted record

theorem stderr_quiet {journal : Journal} (look : String → Entry) {options : Options}
    (hquiet : ∀ record, journal.wants options.verbose record = false) :
    (runWith journal look options).output.stderr =
      said (missingNotices look options.paths ++ (filesOf look options.paths).flatMap (objections options.format)) := by
  rw [stderr_eq, told_of_forall_not, said_transcript]
  intro notice _
  cases notice with
  | note record => exact hquiet record
  | missing | unreadable | approval | heading | finding => rfl

/-! ## Options -/

/-- A strict run approves of nothing. -/
theorem filterMap_approval?_strict (files : List (String × Content)) : files.filterMap (approval? true) = [] := by
  rw [List.filterMap_eq_nil_iff]
  rintro ⟨name, content⟩ -
  cases content with
  | binary => rfl
  | text chars => simp [approval?]

section

variable (journal other : Journal) (look : String → Entry) {options options' : Options}
  (hpaths : options'.paths = options.paths)

include hpaths

/-- How a run ends depends on its paths alone. -/
theorem exit_congr : (runWith other look options').exit = (runWith journal look options).exit := by
  have hfailed : (Progress.finish other look options').failed = (Progress.finish journal look options).failed := by
    rw [(reached_finish other look options').failed, (reached_finish journal look options).failed, hpaths]
  show (if (Progress.finish other look options').failed = true then 1 else 0) = _
  rw [hfailed]
  rfl

/-- What goes to standard error depends on paths, format and log only. -/
theorem stderr_congr (hformat : options'.format = options.format) (hverbose : options'.verbose = options.verbose) :
    (runWith journal look options').output.stderr = (runWith journal look options).output.stderr := by
  rw [stderr_eq, stderr_eq, hpaths, hformat, hverbose]

/-- What goes to standard output depends on paths and format, and in text on whether the run is strict. -/
theorem stdout_congr (hformat : options'.format = options.format)
    (hstrict : options.format = .text → options'.strict = options.strict) :
    (runWith other look options').output.stdout = (runWith journal look options).output.stdout := by
  cases htarget : options.format with
  | text => rw [stdout_text _ _ _ htarget, stdout_text _ _ _ (hformat.trans htarget), hpaths, hstrict htarget]
  | json => rw [stdout_json _ _ _ htarget, stdout_json _ _ _ (hformat.trans htarget), hpaths]

end

/-- With the paths of accepted arguments, all options can be given. -/
theorem exists_read_eq {args : List String} {options : Options} (h : Options.read args = .ok options) (strict : Bool)
    (format : Format) (verbose : Bool) : ∃ args', Options.read args' = .ok ⟨options.paths, strict, format, verbose⟩ := by
  obtain ⟨hpaths, hnames⟩ := paths_of_read h
  exact ⟨_, read_arguments ⟨options.paths, strict, format, verbose⟩ hpaths hnames⟩

theorem runIn_of_read {args : List String} {options : Options} (journal : Journal) (look : String → Entry)
    (h : Options.read args = .ok options) : runIn journal look args = runWith journal look options := by
  rw [runIn, h]

/-! ## Reading the reports -/

/-- the report with the given file and diagnostics -/
def Report.ofJson? (json : Json) : Option Report :=
  match json.fields? ["file", "diagnostics"] with
  | some [file, .arr diagnostics] => do return ⟨← file.string?, ← diagnostics.mapM Diagnostic.ofJson?⟩
  | _ => none

theorem Report.ofJson?_toJson {report : Report} (h : ∀ diagnostic ∈ report.diagnostics, diagnostic.Fits) :
    ofJson? report.toJson = some report := by
  have hfields : report.toJson.fields? ["file", "diagnostics"] =
      some [.str report.file, .arr (report.diagnostics.map Diagnostic.toJson)] := rfl
  have hdiagnostics : (report.diagnostics.map Diagnostic.toJson).mapM Diagnostic.ofJson? = some report.diagnostics := by
    calc (report.diagnostics.map Diagnostic.toJson).mapM Diagnostic.ofJson?
        = report.diagnostics.mapM fun diagnostic => Diagnostic.ofJson? diagnostic.toJson := List.mapM_map
      _ = some (report.diagnostics.map fun diagnostic => diagnostic) :=
        Expression.mapM_eq_some_map fun diagnostic hmem => Diagnostic.ofJson?_toJson (h diagnostic hmem)
      _ = some report.diagnostics := by rw [List.map_id']
  rw [ofJson?, hfields]
  simp only [hdiagnostics]
  rfl

/-- Reports on texts that are not too long are read back. -/
theorem ofJson?_of_mem_reports {files : List (String × Content)}
    (hshort : ∀ file ∈ files, ∀ chars, file.2 = .text chars → Text.utf8Length chars < Nat.pow 2 32) {report : Report}
    (h : report ∈ files.filterMap report?) : Report.ofJson? report.toJson = some report := by
  obtain ⟨⟨name, content⟩, hfile, hreport⟩ := List.mem_filterMap.1 h
  cases content with
  | binary => cases hreport
  | text chars =>
    obtain rfl := Option.some.inj hreport
    exact Report.ofJson?_toJson fun _ hd => fits_of_mem_lint hd (hshort _ hfile chars rfl)

/-- what four paths lead to: a file that is in order, one that is not, one that cannot be read, and nothing -/
def mixedPaths (path : String) : Entry :=
  if path = "ok.yml" then .file (.text [])
  else if path = "bad.yml" then .file (.text "version: '2.0'".toList)
  else if path = "odd.yml" then .file .binary
  else .missing

/-- a log whose lines are numbered, in an environment that asks for nothing itself -/
def numberedJournal : Journal :=
  ⟨none, fun n record => toString n ++ " " ++ record.text ++ "\n"⟩

def mixedArguments : List String :=
  ["ok.yml", "odd.yml", "-v", "gone", "bad.yml"]

end WorkflowLint.CommandLine
