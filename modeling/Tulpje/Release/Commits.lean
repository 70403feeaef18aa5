import Tulpje.Release.Model

/-!
# Which commits and files count for a release

`filter_commits_by_path`, `filename_match` and `should_create_release`. Inverting the filter asks for a file that is
outside of one of the paths instead of all of them, and an exclamation mark of a pattern is taken off and forgotten;
`main_release_files` says when this makes no difference.
-/

namespace Tulpje.Release

/-! ### `constants.py` -/

def releaseFilenameMatchlist : List String := ["*.rs", "Cargo.toml"]

def releaseFilenameMatchlistWorkspace : List String :=
  [".sqlx/*", "*.sql", "nix/*", "Cargo.lock", "compose.*.yml", "Dockerfile*"]

/-- The matchlist of the main release. -/
def workspaceMatchlist (independentCrates : List CrateInfo) : List String :=
  releaseFilenameMatchlist ++ releaseFilenameMatchlistWorkspace ++
    independentCrates.map fun crate => "!" ++ toString crate.path ++ "/**/*"

/-! ### `git.py` -/

def checkPath (file : PurePath) (paths : List PurePath) (invert : Bool) : Bool :=
  if invert then paths.any fun path => path ∉ file.parents else paths.any fun path => path ∈ file.parents

def filterCommitsByPath (commits : List CommitInfo) (paths : List PurePath) (invert : Bool) : List CommitInfo :=
  commits.filter fun commit => commit.files.any fun file => checkPath file paths invert

/-! ### `util.py` -/

/-- `entry[1:]` for an entry that starts with an exclamation mark. -/
def negatedPattern (entry : String) : Option String :=
  match entry.toList with
  | '!' :: pattern => some (String.ofList pattern)
  | _ => none

/-- A pattern as it is, or below any directory. -/
def matchAnywhere (filename : PurePath) (pattern : String) : Except PyError Bool := do
  if ← filename.isMatch pattern then pure true else filename.isMatch ("*/" ++ pattern)

def matchEntry (filename : PurePath) (entry : String) : Except PyError Bool :=
  match negatedPattern entry with
  | some pattern => matchAnywhere filename pattern
  | none => matchAnywhere filename entry

/-- The matchlist is a set, here in the order it is gone through. -/
def filenameMatch (filename : PurePath) (matchlist : List String) : Except PyError Bool :=
  matchlist.anyM (matchEntry filename)

/-! ### `releases.py` -/

def shouldCreateRelease (commits : List CommitInfo) (matchlist : List String) (path : Option PurePath) :
    Except PyError Bool :=
  let changedFiles := (commits.flatMap CommitInfo.files).filter fun file => path.all (· ∈ file.parents)
  changedFiles.dedup.anyM fun file => filenameMatch file matchlist

/-! ### Paths -/

/-- The commit touches a file that lies in one of the paths. -/
def CommitInfo.Inside (commit : CommitInfo) (paths : List PurePath) : Prop :=
  ∃ file ∈ commit.files, ∃ path ∈ paths, file.LiesIn path

/-- The commit touches a file that lies in none of the paths. -/
def CommitInfo.Outside (commit : CommitInfo) (paths : List PurePath) : Prop :=
  ∃ file ∈ commit.files, ∀ path ∈ paths, ¬ file.LiesIn path

instance (commit : CommitInfo) (paths : List PurePath) : Decidable (commit.Inside paths) :=
  inferInstanceAs (Decidable (∃ file ∈ commit.files, ∃ path ∈ paths, file.LiesIn path))

instance (commit : CommitInfo) (paths : List PurePath) : Decidable (commit.Outside paths) :=
  inferInstanceAs (Decidable (∃ file ∈ commit.files, ∀ path ∈ paths, ¬ file.LiesIn path))

theorem checkPath_true_iff {file : PurePath} {paths : List PurePath} :
    checkPath file paths true = true ↔ ∃ path ∈ paths, ¬ file.LiesIn path := by
  simp [checkPath, PurePath.mem_parents_iff]

theorem checkPath_false_iff {file : PurePath} {paths : List PurePath} :
    checkPath file paths false = true ↔ ∃ path ∈ paths, file.LiesIn path := by
  simp [checkPath, PurePath.mem_parents_iff]

theorem filterCommitsByPath_false (commits : List CommitInfo) (paths : List PurePath) :
    filterCommitsByPath commits paths false = commits.filter fun commit => commit.Inside paths := by
  refine List.filter_congr fun commit _ => ?_
  rw [Bool.eq_iff_iff, List.any_eq_true, decide_eq_true_iff]
  simp only [checkPath_false_iff, CommitInfo.Inside]

/-- Filters keep the same elements if they agree on each of them. -/
theorem filter_eq_filter_iff {α : Type} {p q : α → Bool} {l : List α} :
    l.filter p = l.filter q ↔ ∀ a ∈ l, p a = q a := by
  constructor
  · intro h a ha
    have hmem : a ∈ l.filter p ↔ a ∈ l.filter q := by rw [h]
    rw [List.mem_filter, List.mem_filter, and_iff_right ha, and_iff_right ha] at hmem
    exact Bool.eq_iff_iff.mpr hmem
  · exact List.filter_congr

/-- The inverted filter is right if there is a path or nothing to keep, and no commit with all its files in
some paths has one of them outside of another. -/
theorem filterCommitsByPath_true_iff (commits : List CommitInfo) (paths : List PurePath) :
    filterCommitsByPath commits paths true = commits.filter (fun commit => commit.Outside paths) ↔
      ∀ commit ∈ commits, (paths = [] → commit.files = []) ∧
        ((∀ file ∈ commit.files, ∃ path ∈ paths, file.LiesIn path) →
          ∀ file ∈ commit.files, ∀ path ∈ paths, file.LiesIn path) := by
  rw [filterCommitsByPath, filter_eq_filter_iff]
  refine forall₂_congr fun commit _ => ?_
  rw [Bool.eq_iff_iff, List.any_eq_true, decide_eq_true_iff]
  simp only [checkPath_true_iff, CommitInfo.Outside]
  constructor
  · intro h
    refine ⟨?_, fun hall file hfile path hpath => ?_⟩
    · rintro rfl
      refine List.eq_nil_iff_forall_not_mem.mpr fun file hfile => ?_
      obtain ⟨_, _, path, hpath, _⟩ := h.mpr ⟨file, hfile, nofun⟩
      cases hpath
    · by_contra hnot
      obtain ⟨file', hfile', hout⟩ := h.mp ⟨file, hfile, path, hpath, hnot⟩
      obtain ⟨path', hpath', hin⟩ := hall file' hfile'
      exact hout path' hpath' hin
  · rintro ⟨hnone, hall⟩
    constructor
    · rintro ⟨file, hfile, path, hpath, hnot⟩
      by_contra hout
      push Not at hout
      exact hnot (hall hout file hfile path hpath)
    · rintro ⟨file, hfile, hout⟩
      obtain ⟨path, hpath⟩ := List.exists_mem_of_ne_nil paths fun h =>
        List.ne_nil_of_mem hfile (hnone h)
      exact ⟨file, hfile, path, hpath, hout path hpath⟩

/-! ### Patterns -/

/-- The pattern of an entry, without the exclamation mark. -/
def patternOf (entry : String) : String := (negatedPattern entry).getD entry

def Matches (file : PurePath) (pattern : String) : Prop := matchAnywhere file pattern = .ok true

instance (file : PurePath) (pattern : String) : Decidable (Matches file pattern) :=
  inferInstanceAs (Decidable (matchAnywhere file pattern = .ok true))

/-- A positive pattern. -/
def Included (matchlist : List String) (file : PurePath) : Prop :=
  ∃ entry ∈ matchlist, negatedPattern entry = none ∧ Matches file entry

/-- A pattern with an exclamation mark. -/
def Excluded (matchlist : List String) (file : PurePath) : Prop :=
  ∃ pattern ∈ matchlist.filterMap negatedPattern, Matches file pattern

def Wanted (matchlist : List String) (file : PurePath) : Prop :=
  Included matchlist file ∧ ¬ Excluded matchlist file

instance (matchlist : List String) (file : PurePath) : Decidable (Included matchlist file) :=
  inferInstanceAs (Decidable (∃ entry ∈ matchlist, negatedPattern entry = none ∧ Matches file entry))

instance (matchlist : List String) (file : PurePath) : Decidable (Excluded matchlist file) :=
  inferInstanceAs (Decidable (∃ pattern ∈ matchlist.filterMap negatedPattern, Matches file pattern))

instance (matchlist : List String) (file : PurePath) : Decidable (Wanted matchlist file) :=
  inferInstanceAs (Decidable (_ ∧ _))

/-- No pattern is empty, which `match` would raise an error for. -/
def NonemptyPatterns (matchlist : List String) : Prop :=
  ∀ entry ∈ matchlist, (PurePath.ofString (patternOf entry)).parts ≠ []

theorem parts_ofString_ne_nil {text : String} {c : Char} (hc : c ∈ text.toList) (hslash : c ≠ '/') (hdot : c ≠ '.') :
    (PurePath.ofString text).parts ≠ [] := by
  obtain ⟨part, hpart, hmem⟩ := Lib.exists_mem_splitOn hc hslash
  have hne : part ≠ [] ∧ part ≠ ['.'] := by
    constructor
    · rintro rfl
      cases hmem
    · rintro rfl
      exact hdot (List.mem_singleton.mp hmem)
  have htail : String.ofList part ∈ (PurePath.ofString text).tail :=
    List.mem_map_of_mem (List.mem_filter.mpr ⟨hpart, decide_eq_true hne⟩)
  unfold PurePath.parts
  split
  · exact List.ne_nil_of_mem htail
  · exact List.cons_ne_nil _ _

theorem exists_isMatch {pattern : String} (h : (PurePath.ofString pattern).parts ≠ []) (file : PurePath) :
    ∃ b, file.isMatch pattern = .ok b := by
  unfold PurePath.isMatch
  dsimp only
  rw [if_neg fun hnil => h (List.reverse_eq_nil_iff.mp hnil)]
  split
  · exact ⟨false, rfl⟩
  · split
    · exact ⟨false, rfl⟩
    · exact ⟨_, rfl⟩

theorem matchAnywhere_eq {pattern : String} (h : (PurePath.ofString pattern).parts ≠ []) (file : PurePath) :
    matchAnywhere file pattern = .ok (decide (Matches file pattern)) := by
  have hstar : (PurePath.ofString ("*/" ++ pattern)).parts ≠ [] := by
    refine parts_ofString_ne_nil (c := '*') ?_ (by decide) (by decide)
    rw [String.toList_append]
    exact List.mem_append_left _ (by decide)
  have hok : ∃ b, matchAnywhere file pattern = .ok b := by
    obtain ⟨b, hb⟩ := exists_isMatch h file
    obtain ⟨b', hb'⟩ := exists_isMatch hstar file
    rw [matchAnywhere, hb, hb']
    cases b with
    | true => exact ⟨true, rfl⟩
    | false => exact ⟨b', rfl⟩
  obtain ⟨b, hb⟩ := hok
  have hvalue : decide (Matches file pattern) = b := by
    rw [Bool.eq_iff_iff, decide_eq_true_iff, Matches, hb, Except.ok.injEq]
  rw [hb, hvalue]

theorem matchEntry_eq (file : PurePath) (entry : String) :
    matchEntry file entry = matchAnywhere file (patternOf entry) := by
  unfold matchEntry patternOf
  cases negatedPattern entry with
  | none => rfl
  | some pattern => rfl

/-- An exclamation mark makes no difference. -/
theorem exists_matches_patternOf_iff {matchlist : List String} {file : PurePath} :
    (∃ entry ∈ matchlist, Matches file (patternOf entry)) ↔ Included matchlist file ∨ Excluded matchlist file := by
  constructor
  · rintro ⟨entry, hentry, hmatch⟩
    unfold patternOf at hmatch
    rcases hneg : negatedPattern entry with _ | pattern
    · rw [hneg] at hmatch
      exact .inl ⟨entry, hentry, hneg, hmatch⟩
    · rw [hneg] at hmatch
      exact .inr ⟨pattern, List.mem_filterMap.mpr ⟨entry, hentry, hneg⟩, hmatch⟩
  · rintro (⟨entry, hentry, hneg, hmatch⟩ | ⟨pattern, hpattern, hmatch⟩)
    · refine ⟨entry, hentry, ?_⟩
      rwa [patternOf, hneg]
    · obtain ⟨entry, hentry, hneg⟩ := List.mem_filterMap.mp hpattern
      refine ⟨entry, hentry, ?_⟩
      rwa [patternOf, hneg]

theorem shouldCreateRelease_eq {matchlist : List String} (h : NonemptyPatterns matchlist)
    (commits : List CommitInfo) (path : Option PurePath) :
    shouldCreateRelease commits matchlist path = .ok (((commits.flatMap CommitInfo.files).filter fun file =>
      path.all (· ∈ file.parents)).any fun file => Included matchlist file ∨ Excluded matchlist file) := by
  have hfile : ∀ file, filenameMatch file matchlist =
      .ok (decide (Included matchlist file ∨ Excluded matchlist file)) := by
    intro file
    rw [filenameMatch, Lib.anyM_eq_ok fun entry hentry =>
      (matchEntry_eq file entry).trans (matchAnywhere_eq (h entry hentry) file)]
    refine congrArg Except.ok (Bool.eq_iff_iff.mpr ?_)
    simpa using exists_matches_patternOf_iff
  unfold shouldCreateRelease
  rw [Lib.anyM_eq_ok fun file _ => hfile file]
  refine congrArg Except.ok (Bool.eq_iff_iff.mpr ?_)
  rw [List.any_eq_true, List.any_eq_true]
  simp only [List.mem_dedup]

theorem shouldCreateRelease_none {matchlist : List String} (h : NonemptyPatterns matchlist)
    (commits : List CommitInfo) :
    shouldCreateRelease commits matchlist none = .ok (decide (∃ commit ∈ commits, ∃ file ∈ commit.files,
      Included matchlist file ∨ Excluded matchlist file)) := by
  rw [shouldCreateRelease_eq h]
  refine congrArg Except.ok (Bool.eq_iff_iff.mpr ?_)
  rw [List.any_eq_true, decide_eq_true_iff]
  constructor
  · rintro ⟨file, hfile, hmatch⟩
    obtain ⟨commit, hcommit, hmem⟩ := List.mem_flatMap.mp (List.mem_of_mem_filter hfile)
    exact ⟨commit, hcommit, file, hmem, of_decide_eq_true hmatch⟩
  · rintro ⟨commit, hcommit, file, hfile, hmatch⟩
    refine ⟨file, List.mem_filter.mpr ⟨?_, rfl⟩, decide_eq_true hmatch⟩
    exact List.mem_flatMap.mpr ⟨commit, hcommit, hfile⟩

theorem nonemptyPatterns_workspace {independentCrates : List CrateInfo} {matchlist : List String}
    (h : ∀ entry, entry ∈ matchlist ↔ entry ∈ workspaceMatchlist independentCrates) :
    NonemptyPatterns matchlist := by
  intro entry hentry
  rw [h, workspaceMatchlist] at hentry
  rcases List.mem_append.mp hentry with hconst | hcrate
  · have hall : ∀ entry ∈ releaseFilenameMatchlist ++ releaseFilenameMatchlistWorkspace,
        (PurePath.ofString (patternOf entry)).parts ≠ [] := by decide
    exact hall entry hconst
  · obtain ⟨crate, _, rfl⟩ := List.mem_map.mp hcrate
    have hpattern : patternOf ("!" ++ toString crate.path ++ "/**/*") = toString crate.path ++ "/**/*" := by
      simp [patternOf, negatedPattern, String.toList_append]
    rw [hpattern]
    refine parts_ofString_ne_nil (c := '*') ?_ (by decide) (by decide)
    rw [String.toList_append]
    exact List.mem_append_right _ (by decide)

/-- The release of some commits is wanted if one of them touches a wanted file. The code also wants it for an
excluded file. -/
theorem shouldCreateRelease_iff {matchlist : List String} (h : NonemptyPatterns matchlist)
    (commits : List CommitInfo) :
    shouldCreateRelease commits matchlist none =
        .ok (decide (∃ commit ∈ commits, ∃ file ∈ commit.files, Wanted matchlist file)) ↔
      (∀ commit ∈ commits, ∀ file ∈ commit.files, ¬ Excluded matchlist file) ∨
        ∃ commit ∈ commits, ∃ file ∈ commit.files, Wanted matchlist file := by
  rw [shouldCreateRelease_none h, Except.ok.injEq, Bool.eq_iff_iff, decide_eq_true_iff, decide_eq_true_iff]
  by_cases hwanted : ∃ commit ∈ commits, ∃ file ∈ commit.files, Wanted matchlist file
  · refine iff_of_true (iff_of_true ?_ hwanted) (.inr hwanted)
    obtain ⟨commit, hcommit, file, hfile, hmatch⟩ := hwanted
    exact ⟨commit, hcommit, file, hfile, .inl hmatch.1⟩
  · rw [iff_false_right hwanted, or_iff_left hwanted]
    constructor
    · exact fun hnone commit hcommit file hfile hmatch => hnone ⟨commit, hcommit, file, hfile, .inr hmatch⟩
    · rintro hnone ⟨commit, hcommit, file, hfile, hmatch | hmatch⟩
      · exact hwanted ⟨commit, hcommit, file, hfile, hmatch, hnone commit hcommit file hfile⟩
      · exact hnone commit hcommit file hfile hmatch

/-- The filter is right for every list of commits, and the inverted one and the decision on a release exactly when
their slips make no difference. The decision is for any matchlist without an empty pattern, as that of the main release
is in any order it is gone through. -/
theorem main_release_files (commits : List CommitInfo) (paths : List PurePath) (matchlist : List String) :
    filterCommitsByPath commits paths false = commits.filter (fun commit => commit.Inside paths) ∧
    (filterCommitsByPath commits paths true = commits.filter (fun commit => commit.Outside paths) ↔
      ∀ commit ∈ commits, (paths = [] → commit.files = []) ∧
        ((∀ file ∈ commit.files, ∃ path ∈ paths, file.LiesIn path) →
          ∀ file ∈ commit.files, ∀ path ∈ paths, file.LiesIn path)) ∧
    (NonemptyPatterns matchlist →
      (shouldCreateRelease commits matchlist none =
          .ok (decide (∃ commit ∈ commits, ∃ file ∈ commit.files, Wanted matchlist file)) ↔
        (∀ commit ∈ commits, ∀ file ∈ commit.files, ¬ Excluded matchlist file) ∨
          ∃ commit ∈ commits, ∃ file ∈ commit.files, Wanted matchlist file)) ∧
    ∀ independentCrates, (∀ entry, entry ∈ matchlist ↔ entry ∈ workspaceMatchlist independentCrates) →
      NonemptyPatterns matchlist :=
  ⟨filterCommitsByPath_false commits paths, filterCommitsByPath_true_iff commits paths,
    fun h => shouldCreateRelease_iff h commits, fun _ => nonemptyPatterns_workspace⟩

/-- Next to two independent crates: a commit to the workspace and one of them, a text of the workspace, and a commit
without files. -/
theorem main_release_files_of_two :
    let crates : List CrateInfo := [
      ⟨"tulpje-mod", ⟨0, 1, 0, none, none⟩, .ofString "crates/mod", true, ∅, .ofString "Cargo.lock"⟩,
      ⟨"tulpje-lib", ⟨0, 1, 0, none, none⟩, .ofString "crates/lib", true, ∅, .ofString "Cargo.lock"⟩]
    let shared : CommitInfo :=
      ⟨"c0ffee", "a subject", "fix", none, false, "fix: a subject",
        [.ofString "crates/app/src/main.rs", .ofString "crates/mod/src/lib.rs"]⟩
    let readme : CommitInfo := ⟨"c0ffef", "a text", "docs", none, false, "docs: a text", [.ofString "README.md"]⟩
    let empty : CommitInfo := ⟨"c0fff0", "nothing", "chore", none, false, "chore: nothing", []⟩
    filterCommitsByPath [shared, readme, empty] (crates.map (·.path)) true = [shared, readme] ∧
      shouldCreateRelease [shared, readme, empty] (workspaceMatchlist crates) none = .ok true := by
  intro crates shared readme empty
  obtain ⟨-, hinvert, hrelease, hworkspace⟩ :=
    main_release_files [shared, readme, empty] (crates.map (·.path)) (workspaceMatchlist crates)
  constructor
  · have hkept : ∀ commit ∈ [shared, readme, empty], (crates.map (·.path) = [] → commit.files = []) ∧
        ((∀ file ∈ commit.files, ∃ path ∈ crates.map (·.path), file.LiesIn path) →
          ∀ file ∈ commit.files, ∀ path ∈ crates.map (·.path), file.LiesIn path) := by decide
    exact (hinvert.mpr hkept).trans (by decide)
  · have hwanted : Wanted (workspaceMatchlist crates) (.ofString "crates/app/src/main.rs") := by decide
    have hsome : ∃ commit ∈ [shared, readme, empty], ∃ file ∈ commit.files, Wanted (workspaceMatchlist crates) file :=
      ⟨shared, List.mem_cons_self, _, List.mem_cons_self, hwanted⟩
    have hvalue := (hrelease (hworkspace crates fun _ => Iff.rfl)).mpr (.inr hsome)
    rwa [decide_eq_true hsome] at hvalue

/-- A commit that touches one of two independent crates, and there only a text, stays in the main release and makes
it. -/
theorem main_release_sees_independent_crate :
    let crate : CrateInfo :=
      ⟨"tulpje-mod", ⟨0, 1, 0, none, none⟩, .ofString "crates/mod", true, ∅, .ofString "Cargo.lock"⟩
    let other : CrateInfo :=
      ⟨"tulpje-lib", ⟨0, 1, 0, none, none⟩, .ofString "crates/lib", true, ∅, .ofString "Cargo.lock"⟩
    let commit : CommitInfo :=
      ⟨"c0ffee", "a subject", "docs", none, false, "docs: a subject", [.ofString "crates/mod/docs/README.md"]⟩
    (filterCommitsByPath [commit] [crate.path, other.path] true = [commit] ∧
      ¬ commit.Outside [crate.path, other.path]) ∧
    shouldCreateRelease [commit] (workspaceMatchlist [crate, other]) none = .ok true ∧
      ∀ file ∈ commit.files, ¬ Wanted (workspaceMatchlist [crate, other]) file := by
  decide

end Tulpje.Release
