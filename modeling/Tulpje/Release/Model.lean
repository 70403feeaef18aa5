import Mathlib.Data.Finset.Basic
import Tulpje.Release.PurePath
import Tulpje.Release.Version

/-!
# Crates, commits and releases

The records of `release_tulpje/crates.py`, `git.py` and `releases.py`.
-/

namespace Tulpje.Release

structure CrateInfo where
  name : String
  version : Version
  path : PurePath
  independent : Bool
  workspaceDependencies : Finset String
  lockFile : PurePath
  deriving DecidableEq

structure CommitInfo where
  sha : String
  subject : String
  typ : String
  scope : Option String
  breaking : Bool
  rawSubject : String
  files : List PurePath
  deriving DecidableEq

structure ReleaseInfo where
  crates : List CrateInfo
  prevVersion : Version
  currVersion : Version
  commits : List CommitInfo
  changelog : String
  shouldRelease : Bool
  hasFeatureCommit : Bool
  hasBreakingCommit : Bool
  isBreakingSemverChecks : Bool

namespace CrateInfo

/-- Named tuples are compared field by field, versions by their order. -/
instance : BEq CrateInfo where
  beq a b := a.name = b.name && a.version == b.version && a.path = b.path && a.independent = b.independent &&
    a.workspaceDependencies = b.workspaceDependencies && a.lockFile = b.lockFile

end CrateInfo

namespace ReleaseInfo

/-- The equality of the dataclass. -/
instance : BEq ReleaseInfo where
  beq a b := a.crates == b.crates && a.prevVersion == b.prevVersion && a.currVersion == b.currVersion &&
    a.commits = b.commits && a.changelog = b.changelog && a.shouldRelease = b.shouldRelease &&
    a.hasFeatureCommit = b.hasFeatureCommit && a.hasBreakingCommit = b.hasBreakingCommit &&
    a.isBreakingSemverChecks = b.isBreakingSemverChecks

def changed (release : ReleaseInfo) : Bool := release.prevVersion != release.currVersion

def singleCrate (release : ReleaseInfo) : Bool := release.crates.length = 1

def isBreaking (release : ReleaseInfo) : Bool := release.hasBreakingCommit || release.isBreakingSemverChecks

def names (release : ReleaseInfo) : List String := release.crates.map CrateInfo.name

/-- Equal releases have crates of the same names. -/
theorem names_eq_of_beq {a b : ReleaseInfo} (h : (a == b) = true) : a.names = b.names := by
  have hcrates : (a.crates == b.crates) = true := by
    simp only [BEq.beq, Bool.and_eq_true] at h ⊢
    exact h.1.1.1.1.1.1.1.1
  unfold names
  generalize a.crates = xs at hcrates
  generalize b.crates = ys at hcrates
  induction xs generalizing ys with
  | nil =>
    cases ys with
    | nil => rfl
    | cons y ys => cases hcrates
  | cons x xs ih =>
    cases ys with
    | nil => cases hcrates
    | cons y ys =>
      rw [List.cons_beq_cons, Bool.and_eq_true] at hcrates
      have hname : x.name = y.name := by
        have hx := hcrates.1
        simp only [BEq.beq, Bool.and_eq_true, decide_eq_true_eq] at hx
        exact hx.1.1.1.1.1
      rw [List.map_cons, List.map_cons, hname, ih ys hcrates.2]

end ReleaseInfo

end Tulpje.Release
