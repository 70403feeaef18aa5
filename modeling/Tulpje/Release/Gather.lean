import Tulpje.Release.Commits

/-!
# Gathering a release

`gather_release`: the commits of a release since its last tag, whether to release, and the version to release.
`gathered_version` is about the version of a crate with a tag of its own. What git, `cargo semver-checks` and
`git-cliff` answer is a parameter.
-/

namespace Tulpje.Release

/-- What the processes that the tool runs answer. -/
structure Environment where
  /-- `git tag --list`. -/
  tags : List String
  commitsSinceRef : String → List CommitInfo
  /-- Whether `cargo semver-checks` fails, for a tag and a crate or the workspace. -/
  semverChecks : String → Option String → Bool
  /-- The output of a command, without white space around it. -/
  gitCliff : List String → String

section Tags
variable (semver : Semver) (env : Environment)

def gitTagsWithPrefix (tagPrefix : String) : List String :=
  env.tags.filter fun tag => (tagPrefix ++ "v").toList.isPrefixOf tag.toList

def getLatestTag (tagPrefix : String) (includePrerelease : Bool) : Option String :=
  let versions := ((gitTagsWithPrefix env tagPrefix).filterMap (parseSemverFromTag semver · tagPrefix)).filter
    fun v => v.prerelease.isNone || includePrerelease
  (latestVersion versions).map fun latest => tagPrefix ++ "v" ++ toString latest

end Tags

def createChangelogUpdate (env : Environment) (tagPrefix : String) (oldVersion newVersion : Version)
    (independentCrate : Option CrateInfo) (independentCrates : List CrateInfo) : String :=
  let extraArgs := match independentCrate with
    | some crate => ["--include-path", toString crate.path ++ "/**/*"]
    | none => independentCrates.flatMap fun crate => ["--exclude-path", toString crate.path ++ "/**/*"]
  env.gitCliff (["git-cliff"] ++ extraArgs ++ ["--strip", "all", "--tag", toString newVersion,
    prefixedVersion tagPrefix oldVersion ++ "..HEAD"])

/-- The crate that is released on its own. -/
def theOnly : List CrateInfo → Option CrateInfo
  | [crate] => some crate
  | _ => none

def tagPrefixOf (independentCrate : Option CrateInfo) : String :=
  independentCrate.elim "" fun crate => removePrefix crate.name "tulpje-"

section Gather
variable (semver : Semver) (env : Environment)

/-- The last tag of the release itself, prereleases included. -/
def ownTag (independentCrate : Option CrateInfo) : Option String :=
  let tagPrefix := tagPrefixOf independentCrate
  getLatestTag semver env (if tagPrefix = "" then "" else tagPrefix ++ "-") true

def gatherRelease (crates independentCrates : List CrateInfo) (prerelease : Option String) (skipSlow : Bool) :
    Except PyError ReleaseInfo := do
  let independentCrate := theOnly crates
  let tagPrefix := tagPrefixOf independentCrate
  let fileWhitelist := if independentCrate.isSome then releaseFilenameMatchlist else
    workspaceMatchlist independentCrates
  let own := ownTag semver env independentCrate
  let hasIndependentTag := independentCrate.isSome && own.isSome
  -- the main tag stands in for a crate that was never released on its own
  let latest := if independentCrate.isSome && own.isNone then getLatestTag semver env "" false else own
  let some latestTag := latest | throw (.exception "ERR: couldn't find the previous tag")
  let commits := match independentCrate with
    | some crate => filterCommitsByPath (env.commitsSinceRef latestTag) [crate.path] false
    | none => filterCommitsByPath (env.commitsSinceRef latestTag) (independentCrates.map CrateInfo.path) true
  let hasFeatureCommit := commits.any (·.typ = "feat")
  let hasBreakingChangeCommit := commits.any (·.breaking)
  let hasBreakingChangeSemverChecks :=
    if skipSlow then false else env.semverChecks latestTag (independentCrate.map CrateInfo.name)
  let oldVersion ← match independentCrate with
    | some crate => pure crate.version
    | none =>
      let text := removePrefix (removePrefix latestTag tagPrefix) "v"
      match semver.parse text with
      | some version => pure version
      | none => throw (.valueError (text ++ " is not valid SemVer string"))
  let created ← shouldCreateRelease commits fileWhitelist (independentCrate.map CrateInfo.path)
  let shouldRelease := created || (oldVersion.prerelease.isSome && prerelease.isNone)
  let newVersion :=
    if independentCrate.isSome && !hasIndependentTag then oldVersion
    else match prerelease, oldVersion.prerelease with
      | some prerelease, some _ => semver.bumpPrerelease oldVersion prerelease
      | _, _ =>
        versionBump semver oldVersion hasFeatureCommit (hasBreakingChangeCommit || hasBreakingChangeSemverChecks)
          prerelease
  let newChangelog := if skipSlow then "" else
    createChangelogUpdate env tagPrefix oldVersion newVersion independentCrate independentCrates
  return {
    crates, commits, shouldRelease, hasFeatureCommit
    prevVersion := oldVersion
    currVersion := newVersion
    changelog := newChangelog
    hasBreakingCommit := hasBreakingChangeCommit
    isBreakingSemverChecks := hasBreakingChangeSemverChecks }

end Gather

/-! ### The new version -/

section NewVersion
variable {semver : Semver} {env : Environment} {crate : CrateInfo} {tag : String}

theorem nonemptyPatterns_release : NonemptyPatterns releaseFilenameMatchlist := by
  unfold NonemptyPatterns
  decide

theorem gatherRelease_of_ownTag (htag : ownTag semver env (some crate) = some tag)
    (independentCrates : List CrateInfo) (prerelease : Option String) (skipSlow : Bool) :
    ∃ release, gatherRelease semver env [crate] independentCrates prerelease skipSlow = .ok release ∧
      release.prevVersion = crate.version ∧
      release.currVersion = match prerelease, crate.version.prerelease with
        | some prerelease, some _ => semver.bumpPrerelease crate.version prerelease
        | _, _ => versionBump semver crate.version release.hasFeatureCommit release.isBreaking prerelease := by
  unfold gatherRelease
  simp only [theOnly, htag, Option.isSome_some, Option.isNone_some, Bool.and_false, Bool.false_eq_true, if_false,
    Bool.and_true, Bool.not_true, if_true, shouldCreateRelease_eq nonemptyPatterns_release, pure_bind]
  exact ⟨_, rfl, rfl, rfl⟩

end NewVersion

/-- The requested label is alphabetically before the one of the old version. -/
def LabelBefore (prerelease : Option String) (old : Version) : Prop :=
  ∃ token label n, prerelease = some token ∧ old.prerelease = some (numbered label n) ∧ token < label

/-- The old version has no other label than the requested one. -/
def NoOtherLabel (token : String) (old : Version) : Prop :=
  old.prerelease = none ∨ ∃ n, old.prerelease = some (numbered token n)

/-- A first prerelease for which nothing asks for higher numbers, from version one on. -/
def KeepsNumbers (prerelease : Option String) (old : Version) (feature breaking : Bool) : Prop :=
  prerelease.isSome = true ∧ old.prerelease = none ∧ old.major ≠ 0 ∧ feature = false ∧ breaking = false

/-- The new version comes after the old one unless it keeps the numbers, and it has the requested label and no
other. What a change of the label does is left open. -/
structure Advances (prerelease : Option String) (feature breaking : Bool) (old new : Version) : Prop where
  forward : ¬ LabelBefore prerelease old → (old < new ↔ ¬ KeepsNumbers prerelease old feature breaking)
  numbers : ∀ token, prerelease = some token → KeepsNumbers prerelease old feature breaking →
    new = { old with prerelease := some (numbered token 1) }
  label : ∀ token, prerelease = some token → NoOtherLabel token old →
    ∃ n, new.prerelease = some (numbered token n)
  regular : prerelease = none → new.prerelease = none

section Advances
variable {semver : Semver} (hsemver : semver.Documented) {v : Version} {feature breaking : Bool} {token : String}

include hsemver

theorem advances_regular (hv : v.Labelled) :
    Advances none feature breaking v (versionBump semver v feature breaking none) := by
  obtain ⟨hnone, hlt⟩ := versionBump_regular hsemver hv feature breaking
  refine ⟨fun _ => iff_of_true hlt fun hkeeps => ?_, nofun, nofun, fun _ => hnone⟩
  cases hkeeps.1

theorem advances_first (hbuild : v.build = none) (hnone : v.prerelease = none) (htoken : token ≠ "") :
    Advances (some token) feature breaking v (versionBump semver v feature breaking (some token)) := by
  obtain ⟨hlabel, hlt⟩ := versionBump_prerelease hsemver hbuild hnone htoken feature breaking
  refine ⟨fun _ => ?_, ?_, ?_, nofun⟩
  · rw [hlt]
    simp only [KeepsNumbers, Option.isSome_some, hnone, true_and, ne_eq]
    cases feature <;> cases breaking <;> simp
  · rintro _ ⟨⟩ ⟨_, _, hmajor, rfl, rfl⟩
    exact versionBump_keeps_numbers hsemver hbuild hnone htoken hmajor
  · rintro _ ⟨⟩ _
    exact ⟨1, hlabel⟩

theorem advances_next {label : String} {n : Nat} (hsome : v.prerelease = some (numbered label n)) :
    Advances (some token) feature breaking v (semver.bumpPrerelease v token) := by
  have hlt : v < semver.bumpPrerelease v token := by
    rw [hsemver.bump_prerelease v label n token hsome, Version.lt_withPrerelease, hsome]
    exact comparePrerelease_numbered_succ label n
  have hold : v.prerelease ≠ none := by
    rw [hsome]
    exact Option.some_ne_none _
  refine ⟨fun _ => iff_of_true hlt fun hkeeps => hold hkeeps.2.1, fun _ _ hkeeps => absurd hkeeps.2.1 hold, ?_,
    nofun⟩
  rintro _ ⟨⟩ (hnone | ⟨m, hm⟩)
  · exact absurd hnone hold
  · exact ⟨m + 1, by rw [hsemver.bump_prerelease v token m token hm]⟩

end Advances

/-- The version of a release of a crate with a tag of its own. -/
theorem gathered_version (semver : Semver) (hsemver : semver.Documented) (env : Environment) (crate : CrateInfo)
    (hv : crate.version.Labelled) (independentCrates : List CrateInfo) (prerelease : Option String)
    (hprerelease : prerelease ≠ some "") (skipSlow : Bool) (tag : String)
    (htag : ownTag semver env (some crate) = some tag) :
    ∃ release, gatherRelease semver env [crate] independentCrates prerelease skipSlow = .ok release ∧
      release.prevVersion = crate.version ∧
      Advances prerelease release.hasFeatureCommit release.isBreaking crate.version release.currVersion := by
  obtain ⟨release, hrelease, hprev, hcurr⟩ :=
    gatherRelease_of_ownTag htag independentCrates prerelease skipSlow
  refine ⟨release, hrelease, hprev, ?_⟩
  rw [hcurr]
  rcases prerelease with _ | token
  · exact advances_regular hsemver hv
  · rcases hv.prerelease with hnone | ⟨label, n, hsome⟩
    · rw [hnone]
      exact advances_first hsemver hv.build hnone fun h => hprerelease (congrArg some h)
    · rw [hsome]
      exact advances_next hsemver hsome

/-- A fix in a crate of version 0.1.0, released as a beta. -/
theorem gathered_version_of_fix :
    let commit : CommitInfo :=
      ⟨"c0ffee", "a subject", "fix", none, false, "fix: a subject", [.ofString "crates/mod/src/lib.rs"]⟩
    let env : Environment := ⟨["mod-v0.1.0"], fun _ => [commit], fun _ _ => false, fun _ => ""⟩
    let crate : CrateInfo :=
      ⟨"tulpje-mod", ⟨0, 1, 0, none, none⟩, .ofString "crates/mod", true, ∅, .ofString "Cargo.lock"⟩
    ∃ release, gatherRelease .python env [crate] [crate] (some "beta") false = .ok release ∧
      release.prevVersion = crate.version ∧
      Advances (some "beta") release.hasFeatureCommit release.isBreaking crate.version release.currVersion := by
  intro commit env crate
  exact gathered_version .python Semver.documented_python env crate ⟨rfl, .inl rfl⟩ [crate] (some "beta")
    (by decide) false "mod-v0.1.0" (by decide)

/-- The same in a crate of version 1.0.0: the new version is 1.0.0-beta.1, which comes before the old one. -/
theorem first_prerelease_goes_back :
    let commit : CommitInfo :=
      ⟨"c0ffee", "a subject", "fix", none, false, "fix: a subject", [.ofString "crates/mod/src/lib.rs"]⟩
    let env : Environment := ⟨["mod-v1.0.0"], fun _ => [commit], fun _ _ => false, fun _ => ""⟩
    let crate : CrateInfo :=
      ⟨"tulpje-mod", ⟨1, 0, 0, none, none⟩, .ofString "crates/mod", true, ∅, .ofString "Cargo.lock"⟩
    ownTag .python env (some crate) = some "mod-v1.0.0" ∧
    ∃ release, gatherRelease .python env [crate] [crate] (some "beta") false = .ok release ∧
      release.currVersion = ⟨1, 0, 0, some "beta.1", none⟩ ∧ release.currVersion < crate.version := by
  refine ⟨by decide, _, rfl, by decide, by decide⟩

end Tulpje.Release
