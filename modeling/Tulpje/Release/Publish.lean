import Mathlib.Data.List.DropRight
import Tulpje.Release.Bump

/-!
# Publishing the releases

`do_releases` and `main`: the new versions, and behind them the change logs and the commands for git and GitHub. What
running a command raises is a parameter, and so is what `gather_crates` answers.
-/

namespace Tulpje.Release

open Lib

/-! ### Texts -/

/-- `str.replace` with a count of one. -/
def replaceFirst (old new : List Char) : List Char → List Char
  | [] => []
  | c :: text =>
    if old.isPrefixOf (c :: text) then new ++ (c :: text).drop old.length else c :: replaceFirst old new text

/-- `str.replace` by nothing. The number is that of the characters left of the last match. -/
def removeAll (old : List Char) : ℕ → List Char → List Char
  | _, [] => []
  | left + 1, _ :: text => removeAll old left text
  | 0, c :: text =>
    if old.isPrefixOf (c :: text) then removeAll old (old.length - 1) text else c :: removeAll old 0 text

/-- The characters that end a line for `str.splitlines`. -/
def isLineBreak (c : Char) : Bool :=
  c.val ∈ [0x0a, 0x0b, 0x0c, 0x0d, 0x1c, 0x1d, 0x1e, 0x85, 0x2028, 0x2029]

def splitlines : List Char → List (List Char)
  | [] => []
  | '\r' :: '\n' :: text => [] :: splitlines text
  | c :: text =>
    if isLineBreak c then [] :: splitlines text
    else match splitlines text with
      | [] => [[c]]
      | line :: lines => (c :: line) :: lines

/-- `str.isspace`. -/
def isSpace (c : Char) : Bool :=
  c.val ∈ [0x09, 0x0a, 0x0b, 0x0c, 0x0d, 0x1c, 0x1d, 0x1e, 0x1f, 0x20, 0x85, 0xa0, 0x1680, 0x2028, 0x2029, 0x202f,
    0x205f, 0x3000] || (0x2000 ≤ c.val && c.val ≤ 0x200a)

def strip (text : List Char) : List Char := (text.dropWhile isSpace).rdropWhile isSpace

/-- What follows the first `](` of the line. -/
def afterLabel : List Char → Option (List Char)
  | ']' :: '(' :: text => some text
  | [] => none
  | c :: text => if c = '\n' then none else afterLabel text

/-- The line up to its first `)`, and what follows. -/
def upToClosing : List Char → Option (List Char × List Char)
  | [] => none
  | c :: text =>
    if c = '\n' then none
    else if c = ')' then some ([], text)
    else (upToClosing text).map fun found => (c :: found.1, found.2)

/-- `re.sub(r"\[.*?\]\((.*?)\)", r"\1", text)`. `.*?` takes as little as it can, so the first `](` of the line and the
first `)` after it are the only ones to try. -/
def linkTargets : ℕ → List Char → List Char
  | _, [] => []
  | left + 1, _ :: text => linkTargets left text
  | 0, c :: text =>
    match if c = '[' then (afterLabel text).bind upToClosing else none with
    | some (target, rest) => target ++ linkTargets (text.length - rest.length) text
    | none => c :: linkTargets 0 text

example : linkTargets 0 "- fix ([a1b2](host/a1b2))".toList = "- fix (host/a1b2)".toList := by decide

/-! ### `releases.py` -/

namespace ReleaseInfo

def name (release : ReleaseInfo) : String := (theOnly release.crates).elim "tulpje" CrateInfo.name

def tagPrefix (release : ReleaseInfo) : String :=
  (theOnly release.crates).elim "" fun crate => removePrefix crate.name "tulpje-" ++ "-"

def currTag (release : ReleaseInfo) : String := release.tagPrefix ++ "v" ++ toString release.currVersion

def changelogPath (release : ReleaseInfo) : String :=
  (theOnly release.crates).elim "CHANGELOG.md" fun crate => toString crate.path ++ "/CHANGELOG.md"

def tagChangelog (release : ReleaseInfo) : String :=
  let text := removeAll "\n<details><summary>view details</summary>\n".toList 0 release.changelog.toList
  let lines := (splitlines (removeAll "</details>".toList 0 text)).drop 2
  String.ofList (linkTargets 0 (strip (['\n'].intercalate lines)))

def newChangelog (release : ReleaseInfo) (changelog : String) : String :=
  String.ofList (replaceFirst "##".toList (release.changelog ++ "\n\n##").toList changelog.toList)

end ReleaseInfo

/-! ### `do_releases` and `main` -/

/-- A process that the tool runs, with what it is given to read. -/
structure Command where
  args : List String
  input : Option String

structure Tree where
  disk : Disk
  /-- The change logs, by their paths. -/
  changelogs : String → Option String
  /-- The commands so far. -/
  ran : List Command

abbrev Publish := EStateM BumpError Tree

def onDisk {α : Type} (program : Bump α) : Publish α := fun tree =>
  match program.run tree.disk with
  | .ok a disk => .ok a { tree with disk }
  | .error error disk => .error error { tree with disk }

def writeChangelog (release : ReleaseInfo) : Publish Unit := do
  match (← get).changelogs release.changelogPath with
  | some changelog =>
    let newChangelog := release.newChangelog changelog
    modify fun tree =>
      { tree with changelogs := Function.update tree.changelogs release.changelogPath (some newChangelog) }
  | none => throw (.fileNotFoundError release.changelogPath)

def addCommand : Command :=
  ⟨["git", "add", "CHANGELOG.md", "*/CHANGELOG.md", "Cargo.lock", "Cargo.toml", "*/Cargo.toml"], none⟩

def commitCommand (releases : List ReleaseInfo) : Command :=
  let names := releases.reverse.map fun release => release.name ++ " v" ++ toString release.currVersion
  ⟨["git", "commit", "--cleanup=verbatim", "--message", "release: " ++ ", ".intercalate names], none⟩

def tagCommand (release : ReleaseInfo) : Command :=
  ⟨["git", "tag", "--cleanup=verbatim", "--file=-", release.currTag], some release.tagChangelog⟩

def pushCommand (currentBranch : String) (releases : List ReleaseInfo) : Command :=
  ⟨["git", "push", "origin", currentBranch] ++ releases.map ReleaseInfo.currTag, none⟩

def createCommand (release : ReleaseInfo) : Command :=
  ⟨["gh", "release", "create", release.currTag, "--notes-file=-", "--title", release.currTag] ++
    (if release.currVersion.prerelease.isSome then ["--prerelease"] else []), some release.changelog⟩

section Main
variable (semver : Semver) (env : Environment) (staticOrder : Graph → Except PyError (List String))
  (iterate iterate' : String → Finset CrateInfo → List CrateInfo)
  (raises : List Command → Command → Option BumpError)

/-- What a command raises may depend on those before it. -/
def processRun (command : Command) : Publish Unit := do
  let ran := (← get).ran
  modify fun tree => { tree with ran := ran ++ [command] }
  match raises ran command with
  | some error => throw error
  | none => pure ()

def checkOutputDry (execute : Bool) (command : Command) : Publish Unit :=
  if execute then processRun raises command else pure ()

def doReleases (heap : Heap) (releasesByDeps : List Ref) (currentBranch : String) (execute : Bool) :
    Publish Unit := do
  if releasesByDeps.isEmpty then return
  let filteredReleases := (releasesByDeps.map heap.object).filter ReleaseInfo.shouldRelease
  if execute then onDisk (bumpVersions iterate' heap releasesByDeps)
  if execute then filteredReleases.forM writeChangelog
  checkOutputDry raises execute addCommand
  checkOutputDry raises execute (commitCommand filteredReleases)
  filteredReleases.forM fun release => checkOutputDry raises execute (tagCommand release)
  checkOutputDry raises execute (pushCommand currentBranch filteredReleases)
  filteredReleases.forM fun release => checkOutputDry raises execute (createCommand release)

/-- `crates` is the answer of `gather_crates`. -/
def main (crates : List CrateInfo) (currentBranch : String) (args : Args) : Publish ℕ := do
  if args.skipSlow && args.execute then return 1
  if args.execute && args.prerelease.isNone && currentBranch ≠ "main" then return 1
  let releases ← onDisk (raising (gatherReleases semver env (processed crates) args))
  -- a release without crates has no name for the log
  if releases.any fun release => release.crates.isEmpty then throw .indexError
  let heap := Heap.ofList releases
  let releasesByDeps ← onDisk (raising (sortReleasesByDeps staticOrder heap (List.range releases.length)))
  let (heap, releasable) ← onDisk (raising (processDependencies semver iterate heap releasesByDeps))
  doReleases iterate' raises heap releasable currentBranch args.execute
  return 0

end Main

/-! ### Behind the new versions -/

/-- The program ends if and only if it is `ready`, and leaves a tree that is `done`. The disk stays as it is. -/
def Runs (program : Publish Unit) (tree : Tree) (ready : Prop) (done : Tree → Prop) : Prop :=
  (ready ∧ ∃ tree', program.run tree = .ok () tree' ∧ tree'.disk = tree.disk ∧ done tree') ∨
    (¬ ready ∧ ∃ error tree', program.run tree = .error error tree' ∧ tree'.disk = tree.disk)

theorem Runs.bind {first second : Publish Unit} {tree : Tree} {ready ready' : Prop} {done done' : Tree → Prop}
    (hfirst : Runs first tree ready done) (hsecond : ∀ tree', done tree' → Runs second tree' ready' done') :
    Runs (do first; second) tree (ready ∧ ready') done' := by
  rcases hfirst with ⟨hready, tree₁, hrun, hdisk, hdone⟩ | ⟨hready, error, tree₁, hrun, hdisk⟩
  · rcases hsecond tree₁ hdone with ⟨hready', tree₂, hrun', hdisk', hdone'⟩ | ⟨hready', error, tree₂, hrun', hdisk'⟩
    · exact .inl ⟨⟨hready, hready'⟩, tree₂, (bind_eq hrun).trans hrun', hdisk'.trans hdisk, hdone'⟩
    · exact .inr ⟨fun h => hready' h.2, error, tree₂, (bind_eq hrun).trans hrun', hdisk'.trans hdisk⟩
  · exact .inr ⟨fun h => hready h.1, error, tree₁, by rw [EStateM.run_bind, hrun], hdisk⟩

/-- The releases have their change logs. -/
def HaveChangelogs (tree : Tree) (releases : List ReleaseInfo) : Prop :=
  ∀ release ∈ releases, (tree.changelogs release.changelogPath).isSome

theorem writeChangelog_runs (release : ReleaseInfo) (tree : Tree) :
    Runs (writeChangelog release) tree (tree.changelogs release.changelogPath).isSome fun tree' =>
      tree'.ran = tree.ran ∧ ∀ path, (tree'.changelogs path).isSome = (tree.changelogs path).isSome := by
  have hget : (get : Publish Tree).run tree = .ok tree tree := rfl
  cases hlog : tree.changelogs release.changelogPath with
  | none =>
    refine .inr ⟨Bool.false_ne_true, .fileNotFoundError release.changelogPath, tree, ?_, rfl⟩
    rw [writeChangelog, bind_eq hget, hlog]
    rfl
  | some changelog =>
    have hrun : (writeChangelog release).run tree = .ok () { tree with
        changelogs := Function.update tree.changelogs release.changelogPath
          (some (release.newChangelog changelog)) } := by
      rw [writeChangelog, bind_eq hget, hlog]
      rfl
    refine .inl ⟨rfl, _, hrun, rfl, rfl, fun path => ?_⟩
    dsimp only
    by_cases hpath : path = release.changelogPath
    · rw [hpath, Function.update_self, hlog]
      rfl
    · rw [Function.update_of_ne hpath]

theorem writeChangelogs_run (releases : List ReleaseInfo) (tree : Tree) :
    Runs (releases.forM writeChangelog) tree (HaveChangelogs tree releases) fun tree' => tree'.ran = tree.ran := by
  induction releases generalizing tree with
  | nil => exact .inl ⟨fun _ h => (List.not_mem_nil h).elim, tree, rfl, rfl, rfl⟩
  | cons release releases ih =>
    rw [HaveChangelogs, List.forall_mem_cons]
    refine (writeChangelog_runs release tree).bind fun tree' ⟨hran, hchangelogs⟩ => ?_
    have h := ih tree'
    simp only [HaveChangelogs, hchangelogs, hran] at h
    exact h

section Commands
variable (raises : List Command → Command → Option BumpError)

/-- No command raises behind those before it. -/
def Succeed : List Command → List Command → Prop
  | _, [] => True
  | ran, command :: commands => raises ran command = none ∧ Succeed (ran ++ [command]) commands

theorem processRun_runs (command : Command) (tree : Tree) :
    Runs (processRun raises command) tree (raises tree.ran command = none) fun tree' =>
      tree'.ran = tree.ran ++ [command] := by
  have hrun : (processRun raises command).run tree =
      (match raises tree.ran command with
        | some error => throw error
        | none => pure () : Publish Unit).run { tree with ran := tree.ran ++ [command] } := rfl
  cases hraises : raises tree.ran command with
  | none =>
    rw [hraises] at hrun
    exact .inl ⟨rfl, _, hrun, rfl, rfl⟩
  | some error =>
    rw [hraises] at hrun
    exact .inr ⟨Option.some_ne_none error, error, _, hrun, rfl⟩

theorem processRuns_run (commands : List Command) (tree : Tree) :
    Runs (commands.forM (processRun raises)) tree (Succeed raises tree.ran commands) fun tree' =>
      tree'.ran = tree.ran ++ commands := by
  induction commands generalizing tree with
  | nil => exact .inl ⟨trivial, tree, rfl, rfl, (List.append_nil _).symm⟩
  | cons command commands ih =>
    refine (processRun_runs raises command tree).bind fun tree' hran => ?_
    have h := ih tree'
    rw [hran, List.append_assoc] at h
    exact h

/-- The commands for some releases. -/
def releaseCommands (currentBranch : String) (releases : List ReleaseInfo) : List Command :=
  [addCommand, commitCommand releases] ++ releases.map tagCommand ++ [pushCommand currentBranch releases] ++
    releases.map createCommand

theorem doReleases_runs {iterate' : String → Finset CrateInfo → List CrateInfo} {heap : Heap}
    {releasesByDeps : List Ref} (hne : releasesByDeps ≠ [])
    (hreleased : ∀ release ∈ releasesByDeps.map heap.object, release.shouldRelease = true) {tree : Tree} {disk : Disk}
    (hbump : (bumpVersions iterate' heap releasesByDeps).run tree.disk = .ok () disk) (currentBranch : String) :
    ∃ program, (doReleases iterate' raises heap releasesByDeps currentBranch true).run tree =
        program.run { tree with disk } ∧
      Runs program { tree with disk }
        (HaveChangelogs tree (releasesByDeps.map heap.object) ∧
          Succeed raises tree.ran (releaseCommands currentBranch (releasesByDeps.map heap.object)))
        fun tree' => tree'.ran = tree.ran ++ releaseCommands currentBranch (releasesByDeps.map heap.object) := by
  have hfilter : (releasesByDeps.map heap.object).filter ReleaseInfo.shouldRelease = releasesByDeps.map heap.object :=
    List.filter_eq_self.mpr hreleased
  have hempty : releasesByDeps.isEmpty = false := by simpa using hne
  have hdisk : (onDisk (bumpVersions iterate' heap releasesByDeps)).run tree = .ok () { tree with disk } := by
    simp only [EStateM.run] at hbump
    simp only [onDisk, EStateM.run, hbump]
  refine ⟨do
    (releasesByDeps.map heap.object).forM writeChangelog
    (releaseCommands currentBranch (releasesByDeps.map heap.object)).forM (processRun raises), ?_, ?_⟩
  · simp only [doReleases, hempty, hfilter, checkOutputDry, releaseCommands, Bool.false_eq_true, if_false, if_true]
    rw [bind_eq hdisk]
    simp [List.forM_append, List.forM_map, List.forM_cons]
  · refine (writeChangelogs_run _ { tree with disk }).bind fun tree' hran => ?_
    have h := processRuns_run raises (releaseCommands currentBranch (releasesByDeps.map heap.object)) tree'
    rw [hran] at h
    exact h

/-- How a run that makes some releases ends, and in which tree. -/
inductive Ends (currentBranch : String) (made : List ReleaseInfo) (tree : Tree) :
    Tree → EStateM.Result BumpError Tree ℕ → Prop
  | nothing : made = [] → Ends currentBranch made tree tree (.ok 0 tree)
  | published {tree' : Tree} : made ≠ [] → HaveChangelogs tree made →
    Succeed raises tree.ran (releaseCommands currentBranch made) →
    tree'.ran = tree.ran ++ releaseCommands currentBranch made →
    Ends currentBranch made tree tree' (.ok 0 tree')
  | raised {tree' : Tree} (error : BumpError) : made ≠ [] →
    ¬ (HaveChangelogs tree made ∧ Succeed raises tree.ran (releaseCommands currentBranch made)) →
    Ends currentBranch made tree tree' (.error error tree')

theorem doReleases_ends {iterate' : String → Finset CrateInfo → List CrateInfo} {heap : Heap}
    {releasesByDeps : List Ref}
    (hreleased : ∀ release ∈ releasesByDeps.map heap.object, release.shouldRelease = true) {tree : Tree} {disk : Disk}
    (hbump : (bumpVersions iterate' heap releasesByDeps).run tree.disk = .ok () disk) (currentBranch : String) :
    ∃ tree', Ends raises currentBranch (releasesByDeps.map heap.object) tree tree'
        ((do doReleases iterate' raises heap releasesByDeps currentBranch true; return 0 : Publish ℕ).run tree) ∧
      tree'.disk = disk := by
  by_cases hempty : releasesByDeps = []
  · subst hempty
    cases hbump
    exact ⟨tree, .nothing rfl, rfl⟩
  · have hne : releasesByDeps.map heap.object ≠ [] := fun h => hempty (List.map_eq_nil_iff.mp h)
    obtain ⟨program, heq, hruns⟩ := doReleases_runs raises hempty hreleased hbump currentBranch
    rcases hruns with ⟨⟨hchangelogs, hsucceed⟩, tree', hrun, hdisk, hran⟩ | ⟨hnot, error, tree', hrun, hdisk⟩
    · refine ⟨tree', ?_, hdisk⟩
      rw [bind_eq (heq.trans hrun)]
      exact .published hne hchangelogs hsucceed hran
    · refine ⟨tree', ?_, hdisk⟩
      rw [EStateM.run_bind, heq, hrun]
      exact .raised error hne hnot

end Commands

theorem onDisk_raising_ok {α : Type} (a : α) : onDisk (raising (.ok a)) = (pure a : Publish α) := rfl

theorem onDisk_raising_error {α : Type} (error : PyError) (tree : Tree) :
    (onDisk (raising (.error error : Except PyError α))).run tree = .error (.raised error) tree := rfl

/-- A library of its own, and two crates of the workspace above it. -/
def threeCrates : List CrateInfo :=
  [⟨"lib", ⟨1, 0, 0, none, none⟩, .ofString "lib", true, ∅, .ofString "Cargo.lock"⟩,
    ⟨"app", ⟨2, 0, 0, none, none⟩, .ofString "app", false, {"lib"}, .ofString "Cargo.lock"⟩,
    ⟨"worker", ⟨2, 0, 0, none, none⟩, .ofString "worker", false, {"app"}, .ofString "Cargo.lock"⟩]

/-- The library has a new feature. -/
def threeEnvironment : Environment where
  tags := ["lib-v1.0.0", "v2.0.0"]
  commitsSinceRef _ :=
    [⟨"a1b2", "feature", "feat", some "lib", false, "feat(lib): feature", [.ofString "lib/src/lib.rs"]⟩]
  semverChecks _ _ := false
  gitCliff _ := "## changes"

def threeDisk : Disk := fun path =>
  if path = .ofString "./Cargo.toml" then some ⟨none, none, some ⟨some ⟨some (.text "2.0.0")⟩⟩, none⟩
  else if path = .ofString "Cargo.lock" then
    some ⟨none, some (.tables [⟨"app", "2.0.0"⟩, ⟨"lib", "1.0.0"⟩, ⟨"worker", "2.0.0"⟩]), none, none⟩
  else if path = .ofString "lib/Cargo.toml" then some ⟨none, some (.table (some (.text "1.0.0"))), none, none⟩
  else if path = .ofString "app/Cargo.toml" then
    some ⟨none, some (.table (some .table)), none,
      some fun name => if name = "lib" then some (.table (some (.text "1.0.0"))) else none⟩
  else if path = .ofString "worker/Cargo.toml" then
    some ⟨none, some (.table (some .table)), none,
      some fun name => if name = "app" then some (.table (some (.text "2.0.0"))) else none⟩
  else none

def threeVersions (name : String) : String := if name = "lib" then "1.0.0" else "2.0.0"

theorem crateWorkspace_three : CrateWorkspace (processed threeCrates) where
  names := by decide
  paths := by decide
  closed := by decide
  acyclic a hcycle := by
    let rank (name : String) : ℕ := ["lib", "app", "worker"].idxOf name
    have hrank : ∀ crate ∈ processed threeCrates, ∀ b ∈ crate.workspaceDependencies, rank b < rank crate.name := by
      decide
    have hlt : Relation.TransGen (fun m n : ℕ => n < m) (rank a) (rank a) := hcycle.lift rank fun _ b hstep => by
      obtain ⟨crate, hcrate, rfl, hb⟩ := hstep
      exact hrank crate hcrate b hb
    rw [Relation.transGen_eq_self] at hlt
    exact Nat.lt_irrefl _ hlt
  grouped := by decide
  below := by decide

theorem consistent_three : Consistent threeDisk (processed threeCrates) threeVersions := by
  have hcases : ∀ crate ∈ processed threeCrates,
      threeDisk.version crate.ownCell = some (threeVersions crate.name) ∧
      threeDisk.version crate.lockCell = some (threeVersions crate.name) ∧
      ∀ name ∈ crate.workspaceDependencies,
        threeDisk.version (crate.requirementCell name) = some (threeVersions name) := by decide
  rintro _ _ (hcrate | hcrate | ⟨hcrate, hname⟩)
  · exact (hcases _ hcrate).1
  · exact (hcases _ hcrate).2.1
  · exact (hcases _ hcrate).2.2 _ hname

/-- The change logs of the two releases. -/
def threeTree : Tree where
  disk := threeDisk
  changelogs path := if path = "lib/CHANGELOG.md" ∨ path = "CHANGELOG.md" then some "# Changelog\n\n## old" else none
  ran := []

/-- The push is refused, when the new versions are committed already. -/
def refusesPush (_ : List Command) (command : Command) : Option BumpError :=
  if command.args.take 2 = ["git", "push"] then some (.calledProcessError command.args) else none

end Tulpje.Release
