/-
Which options arguments can give.

Arguments are read one by one, from state to state. What every step keeps is that no path taken so far is empty (`Clean`): paths
are only taken when the values that stand by themselves are settled, and an empty one is refused there. So the paths of
accepted arguments are as they should be (`paths_of_read`), and conversely any such paths can be given along with any other
options (`read_arguments`).
-/
import WorkflowLint.CommandLine.Options

namespace WorkflowLint.CommandLine

theorem exists_of_bind_eq_ok {α β : Type} {first : Except Stop α} {next : α → Except Stop β} {b : β}
    (h : (first >>= next) = .ok b) : ∃ a, first = .ok a ∧ next a = .ok b := by
  cases first with
  | error stop => cases h
  | ok a => exact ⟨a, rfl, h⟩

/-! ## Steps -/

namespace State

/-- no path that is taken is empty -/
def Clean (state : State) : Prop :=
  "" ∉ state.paths

variable {state next : State}

/-- Noting what was used leaves everything else as it is. -/
theorem exists_use_eq (state : State) (shown : String) : ∃ used, state.use shown = { state with used } := by
  unfold use
  split
  · exact ⟨state.used, rfl⟩
  · exact ⟨state.used ++ [shown], rfl⟩

theorem paths_use (state : State) (shown : String) : (state.use shown).paths = state.paths := by
  obtain ⟨used, huse⟩ := exists_use_eq state shown
  rw [huse]

theorem paths_setFormat {value : Option String} (h : state.setFormat value = .ok next) : next.paths = state.paths := by
  unfold setFormat at h
  split at h
  · cases h
  · split at h
    · cases h
    · split at h
      · cases h
      · split at h
        · obtain rfl := Except.ok.inj h
          exact paths_use state _
        · cases h

theorem Clean.addPaths (hclean : state.Clean) {values : List String} (h : state.addPaths values = .ok next) :
    next.Clean := by
  unfold State.addPaths at h
  split at h
  · cases h
  · rename_i hvalues
    obtain rfl := Except.ok.inj h
    intro hmem
    rcases List.mem_append.1 hmem with hold | hnew
    · exact hclean hold
    · exact hvalues (List.contains_iff_mem.2 hnew)

theorem Clean.settle (hclean : state.Clean) (h : state.settle = .ok next) : next.Clean := by
  unfold State.settle at h
  split at h
  · obtain rfl := Except.ok.inj h
    exact hclean
  · have hpaths := paths_setFormat h
    unfold Clean
    rw [hpaths]
    exact hclean
  · have hcleared : Clean { state with pending := .nothing } := hclean
    exact hcleared.addPaths h

theorem Clean.flag (hclean : state.Clean) {switch : Switch} (h : state.flag switch = .ok next) : next.Clean := by
  obtain ⟨settled, hsettle, hflag⟩ := exists_of_bind_eq_ok h
  have hsettled : settled.Clean := hclean.settle hsettle
  have hpaths : next.paths = settled.paths := by
    cases switch with
    | help => cases hflag
    | format =>
      obtain rfl := Except.ok.inj hflag
      rfl
    | strict =>
      dsimp only at hflag
      split at hflag
      · cases hflag
      · obtain rfl := Except.ok.inj hflag
        exact paths_use settled _
    | verbose =>
      dsimp only at hflag
      split at hflag
      · cases hflag
      · obtain rfl := Except.ok.inj hflag
        exact paths_use settled _
  unfold Clean
  rw [hpaths]
  exact hsettled

theorem Clean.attached (hclean : state.Clean) {value : String} (h : state.attached value = .ok next) : next.Clean := by
  obtain ⟨settled, hsettle, hformat⟩ := exists_of_bind_eq_ok h
  unfold Clean
  rw [paths_setFormat hformat]
  exact hclean.settle hsettle

theorem Clean.path (hclean : state.Clean) {value : String} (h : state.path value = .ok next) : next.Clean := by
  unfold State.path at h
  split at h
  · obtain rfl := Except.ok.inj h
    exact hclean
  · obtain ⟨settled, hsettle, hnext⟩ := exists_of_bind_eq_ok h
    obtain rfl := Except.ok.inj hnext
    have hsettled : settled.Clean := hclean.settle hsettle
    exact hsettled

theorem Clean.shorts (hclean : state.Clean) {letters : List Char} (h : state.shorts letters = .ok next) :
    next.Clean := by
  induction letters generalizing state with
  | nil =>
    obtain rfl := Except.ok.inj h
    exact hclean
  | cons c rest ih =>
    unfold State.shorts at h
    split at h
    · cases h
    · split at h
      · split at h
        · exact hclean.flag h
        · exact hclean.attached h
        · exact hclean.attached h
      · split at h
        · rename_i flagged hflag
          exact ih (hclean.flag hflag) h
        · cases h

theorem Clean.long (hclean : state.Clean) {name : String} {value : Option String}
    (h : state.long name value = .ok next) : next.Clean := by
  unfold State.long at h
  split at h
  · cases h
  · split at h
    · exact hclean.flag h
    · split at h
      · exact hclean.attached h
      · cases h

theorem Clean.argument (hclean : state.Clean) {arg : String} (h : state.argument arg = .ok next) : next.Clean := by
  unfold State.argument at h
  split at h
  · exact hclean.long h
  · exact hclean.shorts h
  · split at h
    · obtain rfl := Except.ok.inj h
      exact hclean
    · exact hclean.path h

end State

/-! ## Reading -/

theorem clean_of_readFrom {onlyPaths : Bool} {state final : State} (hclean : state.Clean) {args : List String}
    (h : readFrom onlyPaths state args = .ok final) : final.Clean := by
  induction args generalizing onlyPaths state with
  | nil => exact hclean.settle (by cases onlyPaths <;> exact h)
  | cons arg rest ih =>
    cases onlyPaths with
    | true =>
      obtain ⟨next, hpath, hrest⟩ := exists_of_bind_eq_ok h
      exact ih (hclean.path hpath) hrest
    | false =>
      unfold readFrom at h
      split at h
      · exact ih hclean h
      · obtain ⟨next, hargument, hrest⟩ := exists_of_bind_eq_ok h
        exact ih (hclean.argument hargument) hrest

/-- Accepted arguments give at least one path, and none that is empty. -/
theorem paths_of_read {args : List String} {options : Options} (h : Options.read args = .ok options) :
    options.paths ≠ [] ∧ "" ∉ options.paths := by
  obtain ⟨final, hread, hfinal⟩ := exists_of_bind_eq_ok h
  have hclean : final.Clean := clean_of_readFrom (by simp [State.Clean, State.start]) hread
  obtain rfl := Except.ok.inj hfinal
  show (if final.paths.isEmpty = true then ["."] else final.paths) ≠ [] ∧
    "" ∉ (if final.paths.isEmpty = true then ["."] else final.paths)
  by_cases hempty : final.paths.isEmpty = true
  · rw [if_pos hempty]
    decide
  · rw [if_neg hempty]
    exact ⟨fun hnil => hempty (List.isEmpty_iff.2 hnil), hclean⟩

/-! ## Giving options -/

/-- arguments for the given options -/
def arguments (options : Options) : List String :=
  (if options.strict then ["--strict"] else []) ++ (if options.format = .json then ["--format=json"] else []) ++
    (if options.verbose then ["--verbose"] else []) ++ "--" :: options.paths

/-- Options without paths are taken at once, so nothing is pending when the paths come. -/
theorem readFrom_arguments (options : Options) :
    ∃ state, readFrom false State.start (arguments options) = readFrom true state options.paths ∧
      state.pending = .nothing ∧ state.paths = [] ∧
      state.strict = options.strict ∧ state.format.getD .text = options.format ∧ state.verbose = options.verbose := by
  obtain ⟨paths, strict, format, verbose⟩ := options
  cases strict <;> cases format <;> cases verbose <;> exact ⟨_, rfl, rfl, rfl, rfl, rfl, rfl⟩

/-- Paths that follow each other are taken together at the end. -/
theorem readFrom_paths {state : State} {values : List String} (hpending : state.pending = .paths values)
    (paths : List String) :
    readFrom true state paths = { state with pending := .nothing }.addPaths (values ++ paths) := by
  induction paths generalizing state values with
  | nil =>
    rw [readFrom, State.settle, hpending, List.append_nil]
  | cons path paths ih =>
    have hpath : state.path path = .ok { state with pending := .paths (values ++ [path]) } := by
      unfold State.path
      rw [hpending]
    rw [readFrom, hpath]
    show readFrom true { state with pending := .paths (values ++ [path]) } paths = _
    rw [ih rfl, List.append_assoc]
    rfl

/-- Any options with paths that are not empty can be given. -/
theorem read_arguments (options : Options) (hpaths : options.paths ≠ []) (hnames : "" ∉ options.paths) :
    Options.read (arguments options) = .ok options := by
  obtain ⟨state, hread, hpending, hnone, hstrict, hformat, hverbose⟩ := readFrom_arguments options
  have htaken : readFrom true state options.paths =
      .ok { { state with pending := .nothing }.use shownPaths with paths := options.paths } := by
    obtain ⟨path, paths, hcons⟩ := List.exists_cons_of_ne_nil hpaths
    have hpath : state.path path = .ok { state with pending := .paths [path] } := by
      simp only [State.path, State.settle, hpending]
      rfl
    rw [hcons, readFrom, hpath]
    show readFrom true { state with pending := .paths [path] } paths = _
    rw [readFrom_paths rfl, List.singleton_append, ← hcons, State.addPaths,
      if_neg (fun hmem => hnames (List.contains_iff_mem.1 hmem)), hnone, List.nil_append]
  obtain ⟨used, huse⟩ := State.exists_use_eq { state with pending := .nothing } shownPaths
  rw [Options.read, hread, htaken, huse]
  show Except.ok (Options.mk (if options.paths.isEmpty = true then ["."] else options.paths) state.strict
    (state.format.getD .text) state.verbose) = _
  rw [if_neg (fun hempty => hpaths (List.isEmpty_iff.1 hempty)), hstrict, hformat, hverbose]

end WorkflowLint.CommandLine
