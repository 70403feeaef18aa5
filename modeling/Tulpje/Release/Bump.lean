import Tulpje.Lib.Cells
import Tulpje.Release.Dependencies
import Tulpje.Release.Gather

/-!
# Setting the new versions

From the releases to make to the manifests and lock files with the new versions. A document has what the tool reads
and writes of a TOML file, and an exception leaves the files as they are by then.
-/

namespace Tulpje.Release

open Lib

/-! ### Documents -/

/-- The value of a key `version`: a string, or `version.workspace = true`. -/
inductive VersionItem
  | text (version : String)
  | table

def VersionItem.text? : VersionItem → Option String
  | text version => some version
  | table => none

structure LockPackage where
  name : String
  version : String

/-- `[package]` of a manifest, or the tables `[[package]]` of a lock file. -/
inductive PackageItem
  | table (version : Option VersionItem)
  | tables (packages : List LockPackage)

structure WorkspacePackage where
  version : Option VersionItem

structure WorkspaceItem where
  package : Option WorkspacePackage

/-- What a crate says of a dependency. -/
inductive DependencyItem
  | text (requirement : String)
  | table (version : Option VersionItem)

structure Document where
  name : Option String
  package : Option PackageItem
  workspace : Option WorkspaceItem
  dependencies : Option (String → Option DependencyItem)

abbrev Disk := PurePath → Option Document

inductive BumpError
  | raised (error : PyError)
  | indexError
  | fileNotFoundError (path : String)
  | calledProcessError (args : List String)
  | nonExistentKey (key : String)
  | typeError
  | assertionError
  | stopIteration
  | exception (message : String)

abbrev Bump := EStateM BumpError Disk

def raising {α : Type} : Except PyError α → Bump α
  | .ok a => pure a
  | .error error => throw (.raised error)

def load (path : PurePath) : Bump Document := do
  match (← get) path with
  | some document => pure document
  | none => throw (.fileNotFoundError (toString path))

def dump (document : Document) (path : PurePath) : Bump Unit :=
  modify fun disk => Function.update disk path (some document)

/-- The item of a key. -/
def item {α : Type} (key : String) : Option α → Bump α
  | some a => pure a
  | none => throw (.nonExistentKey key)

def PurePath.joinpath (path other : PurePath) : PurePath :=
  if other.root = .none then
    { root := path.root
      tail := path.tail ++ other.tail
      valid := fun part hpart => (List.mem_append.mp hpart).elim (path.valid part) (other.valid part) }
  else other

def CrateInfo.manifest (crate : CrateInfo) : PurePath := crate.path.joinpath (.ofString "Cargo.toml")

/-! ### `crates.py` -/

/-- The first package of a name gets a version. -/
def setVersion (name version : String) : List LockPackage → Option (List LockPackage)
  | [] => none
  | package :: packages =>
    if package.name = name then some ({ package with version } :: packages)
    else (setVersion name version packages).map (package :: ·)

def lockBumpVersion (crate : CrateInfo) (newVersion : Version) : Bump Unit := do
  let manifest ← load crate.lockFile
  let .tables packages ← item "package" manifest.package | throw .assertionError
  -- `next` raises when no package is left, so that the error message behind it is never given
  let some packages := setVersion crate.name (toString newVersion) packages | throw .stopIteration
  dump { manifest with package := some (.tables packages) } crate.lockFile

def workspaceBumpVersion (manifestPath : PurePath) (crates : List CrateInfo) (version : Version) : Bump Unit := do
  let manifest ← load manifestPath
  let workspace ← item "workspace" manifest.workspace
  let package ← item "package" workspace.package
  let package := { package with version := some (.text (toString version)) }
  dump { manifest with workspace := some { workspace with package := some package } } manifestPath
  crates.forM fun crate => lockBumpVersion crate version

def manifestBumpVersion (crate : CrateInfo) (version : Version) : Bump Unit := do
  let manifest ← load crate.manifest
  let .table current ← item "package" manifest.package | throw .typeError
  let .text _ ← item "version" current | do
    let name ← item "name" manifest.name
    throw (.exception s!"Crate {name} doesn't have a string version, likely workspace crate")
  dump { manifest with package := some (.table (some (.text (toString version)))) } crate.manifest
  lockBumpVersion crate version

/-- Update workspace `crate`'s dependency on `dependency` to `newVersion`. -/
def workspaceUpdateDependency (crate dependency : CrateInfo) (newVersion : Version) : Bump Unit := do
  let manifest ← load crate.manifest
  let dependencies ← item "dependencies" manifest.dependencies
  let .table _ ← item dependency.name (dependencies dependency.name) | throw .typeError
  let entry := DependencyItem.table (some (.text (toString newVersion)))
  let dependencies := Function.update dependencies dependency.name (some entry)
  dump { manifest with dependencies := some dependencies } crate.manifest

/-! ### `do_releases` and `main` -/

section Main
variable (semver : Semver) (env : Environment) (iterate' : String → Finset CrateInfo → List CrateInfo)

def bumpRelease (depended : String → Finset CrateInfo) (release : ReleaseInfo) : Bump Unit := do
  match theOnly release.crates with
  | some crate => manifestBumpVersion crate release.currVersion
  | none => workspaceBumpVersion (.ofString "./Cargo.toml") release.crates release.currVersion
  release.crates.forM fun crate =>
    (iterate' crate.name (depended crate.name)).forM fun dependsOn =>
      workspaceUpdateDependency dependsOn crate release.currVersion

/-- The loop of `do_releases` that sets the versions. -/
def bumpVersions (heap : Heap) (releasesByDeps : List Ref) : Bump Unit :=
  let depended := dependedOnBy heap releasesByDeps
  let filteredReleases := releasesByDeps.filter fun ref => (heap.object ref).shouldRelease
  filteredReleases.forM fun ref => bumpRelease iterate' depended (heap.object ref)

structure Args where
  skipSlow : Bool
  execute : Bool
  prerelease : Option String

/-- The workspace hack is excluded from processing. -/
def processed (crates : List CrateInfo) : List CrateInfo := crates.filter fun crate => crate.name ≠ "workspace-hack"

def gatherReleases (crates : List CrateInfo) (args : Args) : Except PyError (List ReleaseInfo) := do
  let independentCrates := crates.filter fun crate => crate.independent
  let groupedCrates := crates.filter fun crate => !crate.independent
  let releases ← independentCrates.mapM fun crate =>
    gatherRelease semver env [crate] independentCrates args.prerelease args.skipSlow
  let grouped ← gatherRelease semver env groupedCrates independentCrates args.prerelease args.skipSlow
  pure (releases ++ [grouped])

end Main

/-! ### Where versions stand -/

inductive Key
  | package
  | workspace
  | locked (name : String)
  | requirement (name : String)
  deriving DecidableEq

structure Cell where
  file : PurePath
  key : Key
  deriving DecidableEq

def Document.version (document : Document) : Key → Option String
  | .package => match document.package with
    | some (.table (some version)) => version.text?
    | _ => none
  | .workspace => match document.workspace with
    | some ⟨some ⟨some version⟩⟩ => version.text?
    | _ => none
  | .locked name => match document.package with
    | some (.tables packages) => (packages.find? fun package => package.name = name).map LockPackage.version
    | _ => none
  | .requirement name => match document.dependencies.bind (· name) with
    | some (.table (some version)) => version.text?
    | _ => none

def Disk.version (disk : Disk) (cell : Cell) : Option String :=
  (disk cell.file).bind fun document => document.version cell.key

theorem Disk.exists_document {disk : Disk} {cell : Cell} (h : (disk.version cell).isSome) :
    ∃ document, disk cell.file = some document ∧ (document.version cell.key).isSome := by
  cases hdocument : disk cell.file with
  | none => simp [Disk.version, hdocument] at h
  | some document => exact ⟨document, rfl, by simpa [Disk.version, hdocument] using h⟩

/-- A document with a new version takes the place of the old one. -/
theorem Disk.version_update {disk : Disk} {file : PurePath} {key : Key} {document document' : Document}
    (hdocument : disk file = some document) {version : String}
    (h : document'.version = Function.update document.version key (some version)) :
    Disk.version (Function.update disk file (some document')) = written [(⟨file, key⟩, version)] disk.version := by
  funext cell
  obtain ⟨file', key'⟩ := cell
  simp only [written, List.foldl_cons, List.foldl_nil, Disk.version]
  by_cases hfile : file' = file
  · subst hfile
    rw [Function.update_self, Option.bind_some, h]
    by_cases hkey : key' = key
    · rw [hkey, Function.update_self, Function.update_self]
    · rw [Function.update_of_ne hkey, Function.update_of_ne fun heq => hkey (congrArg Cell.key heq)]
      simp [Disk.version, hdocument]
  · rw [Function.update_of_ne hfile, Function.update_of_ne fun heq => hfile (congrArg Cell.file heq)]
    rfl

theorem load_eq {disk : Disk} {path : PurePath} {document : Document} (h : disk path = some document) :
    (load path).run disk = .ok document disk := by
  rw [load, bind_eq (EStateM.run_get disk), h]
  rfl

/-- A program that sets one version, and goes on like another one. -/
theorem writes_version {program next : Bump Unit} {cell : Cell} {version : String} {writes : List (Cell × String)}
    (hnext : Writes Disk.version next writes)
    (h : ∀ disk document, disk cell.file = some document → (document.version cell.key).isSome →
      ∃ document', document'.version = Function.update document.version cell.key (some version) ∧
        program.run disk = next.run (Function.update disk cell.file (some document'))) :
    Writes Disk.version program ([(cell, version)] ++ writes) := by
  refine hnext.after fun disk hcells => ?_
  obtain ⟨document, hdocument, hkey⟩ := Disk.exists_document (hcells _ (List.mem_singleton_self _))
  obtain ⟨document', hversion, hrun⟩ := h disk document hdocument hkey
  exact ⟨_, hrun, Disk.version_update hdocument hversion⟩

/-! ### What each function writes -/

def CrateInfo.lockCell (crate : CrateInfo) : Cell := ⟨crate.lockFile, .locked crate.name⟩

def CrateInfo.requirementCell (crate : CrateInfo) (name : String) : Cell := ⟨crate.manifest, .requirement name⟩

def packageCell (crate : CrateInfo) : Cell := ⟨crate.manifest, .package⟩

def workspaceCell : Cell := ⟨.ofString "./Cargo.toml", .workspace⟩

theorem setVersion_spec {name : String} (version : String) {packages : List LockPackage}
    (h : (packages.find? fun package => package.name = name).isSome) :
    ∃ packages', setVersion name version packages = some packages' ∧
      ∀ other, (packages'.find? fun package => package.name = other).map LockPackage.version =
        if other = name then some version
        else (packages.find? fun package => package.name = other).map LockPackage.version := by
  induction packages with
  | nil => cases h
  | cons package packages ih =>
    by_cases hname : package.name = name
    · refine ⟨{ package with version } :: packages, if_pos hname, fun other => ?_⟩
      by_cases hother : other = name
      · simp [hother, hname]
      · have hne : package.name ≠ other := fun heq => hother (heq.symm.trans hname)
        simp [hother, hne]
    · rw [List.find?_cons_of_neg (by simpa using hname)] at h
      obtain ⟨packages', hset, hfind⟩ := ih h
      refine ⟨package :: packages', ?_, fun other => ?_⟩
      · rw [setVersion, if_neg hname, hset, Option.map_some]
      · by_cases hother : package.name = other
        · have hne : other ≠ name := fun heq => hname (hother.trans heq)
          simp [hother, hne]
        · simpa [List.find?_cons, hother] using hfind other

theorem lockBumpVersion_writes (crate : CrateInfo) (version : Version) :
    Writes Disk.version (lockBumpVersion crate version) [(crate.lockCell, toString version)] := by
  refine writes_version .pure fun disk document hdocument hkey => ?_
  obtain ⟨name, package, workspace, dependencies⟩ := document
  rcases package with _ | (_ | packages)
  · cases hkey
  · cases hkey
  obtain ⟨packages', hset, hfind⟩ := setVersion_spec (toString version) (Option.isSome_map.symm.trans hkey)
  refine ⟨⟨name, some (.tables packages'), workspace, dependencies⟩, funext fun key => ?_, ?_⟩
  · cases key with
    | locked other => simp only [Document.version, hfind, Function.update_apply, CrateInfo.lockCell, Key.locked.injEq]
    | package | workspace | requirement => rfl
  · have hload : (load crate.lockFile).run disk = .ok _ disk := load_eq hdocument
    rw [lockBumpVersion, bind_eq hload]
    simp only [item, pure_bind, hset]
    rfl

theorem workspaceBumpVersion_writes (crates : List CrateInfo) (version : Version) :
    Writes Disk.version (workspaceBumpVersion (.ofString "./Cargo.toml") crates version)
      ((workspaceCell, toString version) :: crates.flatMap fun crate => [(crate.lockCell, toString version)]) := by
  have hlocks := Writes.forM crates fun crate _ => lockBumpVersion_writes crate version
  refine writes_version hlocks fun disk document hdocument hkey => ?_
  obtain ⟨name, package, workspace, dependencies⟩ := document
  rcases workspace with _ | ⟨_ | ⟨current⟩⟩
  · cases hkey
  · cases hkey
  refine ⟨⟨name, package, some ⟨some ⟨some (.text (toString version))⟩⟩, dependencies⟩, funext fun key => ?_, ?_⟩
  · cases key <;> rfl
  · have hload : (load (.ofString "./Cargo.toml")).run disk = .ok _ disk := load_eq hdocument
    rw [workspaceBumpVersion, bind_eq hload]
    rfl

theorem manifestBumpVersion_writes (crate : CrateInfo) (version : Version) :
    Writes Disk.version (manifestBumpVersion crate version)
      [(packageCell crate, toString version), (crate.lockCell, toString version)] := by
  refine writes_version (lockBumpVersion_writes crate version) fun disk document hdocument hkey => ?_
  obtain ⟨name, package, workspace, dependencies⟩ := document
  rcases package with _ | ((_ | current | _) | packages)
  · cases hkey
  · cases hkey
  · refine ⟨⟨name, some (.table (some (.text (toString version)))), workspace, dependencies⟩,
      funext fun key => ?_, ?_⟩
    · cases key <;> rfl
    · have hload : (load crate.manifest).run disk = .ok _ disk := load_eq hdocument
      rw [manifestBumpVersion, bind_eq hload]
      rfl
  · cases hkey
  · cases hkey

theorem workspaceUpdateDependency_writes (crate dependency : CrateInfo) (version : Version) :
    Writes Disk.version (workspaceUpdateDependency crate dependency version)
      [(crate.requirementCell dependency.name, toString version)] := by
  refine writes_version .pure fun disk document hdocument hkey => ?_
  obtain ⟨name, package, workspace, dependencies⟩ := document
  rcases dependencies with _ | dependencies
  · cases hkey
  cases hentry : dependencies dependency.name with
  | none => simp [Document.version, CrateInfo.requirementCell, hentry] at hkey
  | some entry =>
    cases entry with
    | text => simp [Document.version, CrateInfo.requirementCell, hentry] at hkey
    | table current =>
      refine ⟨⟨name, package, workspace, some (Function.update dependencies dependency.name
        (some (.table (some (.text (toString version))))))⟩, funext fun key => ?_, ?_⟩
      · cases key with
        | requirement other =>
          by_cases hother : other = dependency.name
          · simp [Document.version, CrateInfo.requirementCell, hother, VersionItem.text?]
          · simp [Document.version, CrateInfo.requirementCell, hother]
        | package | workspace | locked => rfl
      · have hload : (load crate.manifest).run disk = .ok _ disk := load_eq hdocument
        rw [workspaceUpdateDependency, bind_eq hload]
        simp only [item, pure_bind, hentry]
        rfl

/-- The writes for the crates of a release. -/
def ownWrites (crates : List CrateInfo) (version : String) : List (Cell × String) :=
  match theOnly crates with
  | some crate => [(packageCell crate, version), (crate.lockCell, version)]
  | none => (workspaceCell, version) :: crates.flatMap fun crate => [(crate.lockCell, version)]

def releaseWrites (iterate' : String → Finset CrateInfo → List CrateInfo) (depended : String → Finset CrateInfo)
    (release : ReleaseInfo) : List (Cell × String) :=
  ownWrites release.crates (toString release.currVersion) ++
    release.crates.flatMap fun crate => (iterate' crate.name (depended crate.name)).flatMap fun dependsOn =>
      [(dependsOn.requirementCell crate.name, toString release.currVersion)]

theorem bumpRelease_writes (iterate' : String → Finset CrateInfo → List CrateInfo)
    (depended : String → Finset CrateInfo) (release : ReleaseInfo) :
    Writes Disk.version (bumpRelease iterate' depended release) (releaseWrites iterate' depended release) := by
  have hrequirements := Writes.forM release.crates fun crate _ =>
    Writes.forM (iterate' crate.name (depended crate.name)) fun dependsOn _ =>
      workspaceUpdateDependency_writes dependsOn crate release.currVersion
  unfold bumpRelease releaseWrites ownWrites
  cases theOnly release.crates with
  | some crate => exact (manifestBumpVersion_writes crate release.currVersion).bind hrequirements
  | none => exact (workspaceBumpVersion_writes release.crates release.currVersion).bind hrequirements

def bumpWrites (iterate' : String → Finset CrateInfo → List CrateInfo) (heap : Heap) (releasesByDeps : List Ref) :
    List (Cell × String) :=
  (releasesByDeps.filter fun ref => (heap.object ref).shouldRelease).flatMap fun ref =>
    releaseWrites iterate' (dependedOnBy heap releasesByDeps) (heap.object ref)

theorem bumpVersions_writes (iterate' : String → Finset CrateInfo → List CrateInfo) (heap : Heap)
    (releasesByDeps : List Ref) :
    Writes Disk.version (bumpVersions iterate' heap releasesByDeps) (bumpWrites iterate' heap releasesByDeps) :=
  Writes.forM _ fun _ _ => bumpRelease_writes _ _ _

/-! ### Consistent versions -/

/-- What the version of a crate is kept in: the own manifest of an independent crate, and the one of the workspace
for the others. -/
def CrateInfo.ownCell (crate : CrateInfo) : Cell :=
  if crate.independent then packageCell crate else workspaceCell

/-- A cell holds the version of the crate of a name. -/
inductive States (crates : List CrateInfo) : Cell → String → Prop
  | own {crate} : crate ∈ crates → States crates crate.ownCell crate.name
  | locked {crate} : crate ∈ crates → States crates crate.lockCell crate.name
  | requirement {crate name} : crate ∈ crates → name ∈ crate.workspaceDependencies →
    States crates (crate.requirementCell name) name

/-- Manifests, lock files and requirements agree on the version of each crate. -/
def Consistent (disk : Disk) (crates : List CrateInfo) (version : String → String) : Prop :=
  ∀ cell name, States crates cell name → disk.version cell = some (version name)

/-- The crates of a workspace that `main` releases. Independent crates do not depend on the others, of which there are
two or more. -/
structure CrateWorkspace (crates : List CrateInfo) : Prop where
  names : (crates.map CrateInfo.name).Nodup
  paths : (crates.map CrateInfo.path).Nodup
  closed : ∀ crate ∈ crates, ∀ name ∈ crate.workspaceDependencies, name ∈ crates.map CrateInfo.name
  acyclic : ∀ a, ¬ Relation.TransGen (fun a b => ∃ crate ∈ crates, crate.name = a ∧ b ∈ crate.workspaceDependencies) a a
  grouped : 2 ≤ (crates.filter fun crate => !crate.independent).length
  below : ∀ crate ∈ crates, crate.independent = true → ∀ other ∈ crates, other.name ∈ crate.workspaceDependencies →
    other.independent = true

theorem PurePath.eq_of_joinpath {path path' other : PurePath} (hother : other.root = .none)
    (h : path.joinpath other = path'.joinpath other) : path = path' := by
  simp only [joinpath, hother, if_true, mk.injEq, List.append_cancel_right_eq] at h
  obtain ⟨root, tail, hvalid⟩ := path
  obtain ⟨root', tail', hvalid'⟩ := path'
  obtain ⟨rfl, rfl⟩ := h
  rfl

section Cells
variable {crates : List CrateInfo} (h : CrateWorkspace crates)

include h in
theorem CrateWorkspace.eq_of_manifest {a b : CrateInfo} (ha : a ∈ crates) (hb : b ∈ crates)
    (hmanifest : a.manifest = b.manifest) : a = b :=
  List.inj_on_of_nodup_map h.paths ha hb (PurePath.eq_of_joinpath (by decide) hmanifest)

theorem ownCell_cases (crate : CrateInfo) :
    crate.independent = true ∧ crate.ownCell = packageCell crate ∨
      crate.independent = false ∧ crate.ownCell = workspaceCell := by
  unfold CrateInfo.ownCell
  cases crate.independent
  · exact .inr ⟨rfl, rfl⟩
  · exact .inl ⟨rfl, rfl⟩

/-- Two names of crates whose versions are in one cell: they are the same, or both are of crates that are released
together. -/
def Together (crates : List CrateInfo) (a b : String) : Prop :=
  a = b ∨ ∃ x ∈ crates, ∃ y ∈ crates, (x.name = a ∧ x.independent = false) ∧ y.name = b ∧ y.independent = false

theorem States.holds {cell : Cell} {name : String} (h : States crates cell name) :
    match cell.key with
    | .locked other | .requirement other => name = other
    | .package => ∃ crate ∈ crates, crate.name = name ∧ crate.manifest = cell.file
    | .workspace => ∃ crate ∈ crates, crate.name = name ∧ crate.independent = false := by
  cases h with
  | @own crate hcrate =>
    rcases ownCell_cases crate with ⟨_, hown⟩ | ⟨hindependent, hown⟩
    · rw [hown]
      exact ⟨crate, hcrate, rfl, rfl⟩
    · rw [hown]
      exact ⟨crate, hcrate, rfl, hindependent⟩
  | locked => rfl
  | requirement => rfl

include h in
theorem States.together {cell : Cell} {a b : String} (ha : States crates cell a) (hb : States crates cell b) :
    Together crates a b := by
  have ha := ha.holds
  have hb := hb.holds
  obtain ⟨file, key⟩ := cell
  cases key with
  | locked | requirement => exact .inl (ha.trans hb.symm)
  | package =>
    obtain ⟨x, hx, rfl, hfile⟩ := ha
    obtain ⟨y, hy, rfl, hfile'⟩ := hb
    exact .inl (congrArg CrateInfo.name (h.eq_of_manifest hx hy (hfile.trans hfile'.symm)))
  | workspace =>
    obtain ⟨x, hx, hxname, hxgrouped⟩ := ha
    obtain ⟨y, hy, hyname, hygrouped⟩ := hb
    exact .inr ⟨x, hx, y, hy, ⟨hxname, hxgrouped⟩, hyname, hygrouped⟩

/-- Releases to make. Crates that are released together are in one of them or in none, and so is a crate that depends
on one of theirs. -/
structure Batch (crates : List CrateInfo) (made : List ReleaseInfo) : Prop where
  nonempty : ∀ release ∈ made, release.crates ≠ []
  released : ∀ release ∈ made, release.shouldRelease = true
  member : ∀ release ∈ made, ∀ crate ∈ release.crates, crate ∈ crates ∧ crate.independent = release.singleCrate
  together : ∀ release ∈ made, ∀ a ∈ release.names, ∀ b, Together crates a b → b ∈ release.names
  disjoint : ∀ release ∈ made, ∀ release' ∈ made, ∀ name ∈ release.names, name ∈ release'.names → release = release'
  closed : ∀ crate ∈ crates, ∀ release ∈ made, ∀ name ∈ release.names, name ∈ crate.workspaceDependencies →
    ∃ release' ∈ made, crate ∈ release'.crates

/-- The versions after the releases are made. -/
def bumped (made : List ReleaseInfo) (version : String → String) (name : String) : String :=
  match made.find? fun release => name ∈ release.names with
  | some release => toString release.currVersion
  | none => version name

section Writes
variable {iterate' : String → Finset CrateInfo → List CrateInfo}
  (hiterate' : ∀ name crates crate, crate ∈ iterate' name crates ↔ crate ∈ crates)

theorem theOnly_eq_some {crates : List CrateInfo} {crate : CrateInfo} (h : theOnly crates = some crate) :
    crates = [crate] := by
  match crates, h with
  | [_], rfl => rfl

theorem theOnly_eq_none {crates : List CrateInfo} (h : theOnly crates = none) : crates.length ≠ 1 := by
  rintro hlength
  obtain ⟨crate, rfl⟩ := List.length_eq_one_iff.mp hlength
  cases h

theorem mem_ownWrites {release : ReleaseInfo} (hnonempty : release.crates ≠ [])
    (hindependent : ∀ crate ∈ release.crates, crate.independent = release.singleCrate) {version value : String}
    {cell : Cell} :
    (cell, value) ∈ ownWrites release.crates version ↔
      value = version ∧ ∃ crate ∈ release.crates, cell = crate.ownCell ∨ cell = crate.lockCell := by
  unfold ownWrites
  cases honly : theOnly release.crates with
  | some crate =>
    have hcrates := theOnly_eq_some honly
    have hsingle : release.singleCrate = true := by simp [ReleaseInfo.singleCrate, hcrates]
    have hown : crate.ownCell = packageCell crate := by
      rw [CrateInfo.ownCell, hindependent crate (by simp [hcrates]), hsingle, if_pos rfl]
    simp only [hcrates, List.mem_cons, List.not_mem_nil, or_false, Prod.mk.injEq, exists_eq_left, hown]
    tauto
  | none =>
    have hsingle : release.singleCrate = false := by simp [ReleaseInfo.singleCrate, theOnly_eq_none honly]
    have hown : ∀ crate ∈ release.crates, crate.ownCell = workspaceCell := fun crate hcrate => by
      rw [CrateInfo.ownCell, hindependent crate hcrate, hsingle, if_neg Bool.false_ne_true]
    simp only [List.mem_cons, List.mem_flatMap, List.not_mem_nil, or_false, Prod.mk.injEq]
    constructor
    · rintro (⟨hcell, hvalue⟩ | ⟨crate, hcrate, hcell, hvalue⟩)
      · obtain ⟨crate, hcrate⟩ := List.exists_mem_of_ne_nil _ hnonempty
        exact ⟨hvalue, crate, hcrate, .inl (hcell.trans (hown crate hcrate).symm)⟩
      · exact ⟨hvalue, crate, hcrate, .inr hcell⟩
    · rintro ⟨hvalue, crate, hcrate, hcell | hcell⟩
      · exact .inl ⟨hcell.trans (hown crate hcrate), hvalue⟩
      · exact .inr ⟨crate, hcrate, hcell, hvalue⟩

include hiterate' in
theorem mem_releaseWrites {depended : String → Finset CrateInfo} {release : ReleaseInfo}
    (hnonempty : release.crates ≠ [])
    (hindependent : ∀ crate ∈ release.crates, crate.independent = release.singleCrate) {cell : Cell} {value : String} :
    (cell, value) ∈ releaseWrites iterate' depended release ↔ value = toString release.currVersion ∧
      ∃ crate ∈ release.crates, (cell = crate.ownCell ∨ cell = crate.lockCell) ∨
        ∃ dependsOn ∈ depended crate.name, cell = dependsOn.requirementCell crate.name := by
  rw [releaseWrites, List.mem_append, mem_ownWrites hnonempty hindependent]
  simp only [List.mem_flatMap, List.mem_singleton, Prod.mk.injEq, hiterate']
  constructor
  · rintro (⟨hvalue, crate, hcrate, hcell⟩ | ⟨crate, hcrate, dependsOn, hdepended, hcell, hvalue⟩)
    · exact ⟨hvalue, crate, hcrate, .inl hcell⟩
    · exact ⟨hvalue, crate, hcrate, .inr ⟨dependsOn, hdepended, hcell⟩⟩
  · rintro ⟨hvalue, crate, hcrate, hcell | ⟨dependsOn, hdepended, hcell⟩⟩
    · exact .inl ⟨hvalue, crate, hcrate, hcell⟩
    · exact .inr ⟨crate, hcrate, dependsOn, hdepended, hcell, hvalue⟩

variable {heap : Heap} {result : List Ref}

include h hiterate' in
/-- The loop writes the cells of the crates that are released. -/
theorem mem_bumpWrites (hbatch : Batch crates (result.map heap.object)) {cell : Cell} {value : String} :
    (cell, value) ∈ bumpWrites iterate' heap result ↔
      ∃ release ∈ result.map heap.object, value = toString release.currVersion ∧
        ∃ name ∈ release.names, States crates cell name := by
  have hall : (result.filter fun ref => (heap.object ref).shouldRelease) = result :=
    List.filter_eq_self.mpr fun ref href => hbatch.released _ (List.mem_map_of_mem href)
  have hwrites : ∀ release ∈ result.map heap.object,
      ((cell, value) ∈ releaseWrites iterate' (dependedOnBy heap result) release ↔
        value = toString release.currVersion ∧ ∃ name ∈ release.names, States crates cell name) := by
    intro release hrelease
    rw [mem_releaseWrites hiterate' (hbatch.nonempty release hrelease) fun crate hcrate =>
      (hbatch.member release hrelease crate hcrate).2]
    refine and_congr_right fun _ => ?_
    constructor
    · rintro ⟨crate, hcrate, hcell⟩
      have hmem := (hbatch.member release hrelease crate hcrate).1
      refine ⟨crate.name, List.mem_map_of_mem hcrate, ?_⟩
      rcases hcell with (rfl | rfl) | ⟨dependsOn, hdepended, rfl⟩
      · exact .own hmem
      · exact .locked hmem
      · obtain ⟨⟨release', hrelease', hdependsOn⟩, hname⟩ := mem_dependedOnBy.mp hdepended
        exact .requirement (hbatch.member release' hrelease' dependsOn hdependsOn).1 hname
    · rintro ⟨_, hname, hstates⟩
      obtain ⟨crate, hcrate, rfl⟩ := List.mem_map.mp hname
      have hmem := (hbatch.member release hrelease crate hcrate).1
      have heq : ∀ other ∈ crates, other.name = crate.name → other = crate := fun other hother hname =>
        List.inj_on_of_nodup_map h.names hother hmem hname
      refine ⟨crate, hcrate, ?_⟩
      generalize hother : crate.name = name at hstates
      cases hstates with
      | @own other hmem' =>
        obtain rfl := heq other hmem' hother.symm
        exact .inl (.inl rfl)
      | @locked other hmem' =>
        obtain rfl := heq other hmem' hother.symm
        exact .inl (.inr rfl)
      | @requirement other name hmem' hdependency =>
        obtain ⟨release', hrelease', hcrate'⟩ :=
          hbatch.closed other hmem' release hrelease name (hother ▸ hname) hdependency
        exact .inr ⟨other, mem_dependedOnBy.mpr ⟨⟨release', hrelease', hcrate'⟩, hdependency⟩, rfl⟩
  rw [bumpWrites, hall, List.mem_flatMap]
  constructor
  · rintro ⟨ref, href, hmem⟩
    exact ⟨_, List.mem_map_of_mem href, (hwrites _ (List.mem_map_of_mem href)).mp hmem⟩
  · rintro ⟨release, hrelease, hmem⟩
    have hmem := (hwrites release hrelease).mpr hmem
    obtain ⟨ref, href, rfl⟩ := List.mem_map.mp hrelease
    exact ⟨ref, href, hmem⟩

theorem bumped_of_mem {made : List ReleaseInfo} (hbatch : Batch crates made) {release : ReleaseInfo}
    (hrelease : release ∈ made) {name : String} (hname : name ∈ release.names) (version : String → String) :
    bumped made version name = toString release.currVersion := by
  unfold bumped
  cases hfind : made.find? fun release => name ∈ release.names with
  | none => exact absurd (decide_eq_true hname) (List.find?_eq_none.mp hfind release hrelease)
  | some found =>
    have hfound : name ∈ found.names := by simpa using List.find?_some hfind
    rw [hbatch.disjoint release hrelease found (List.mem_of_find?_eq_some hfind) name hname hfound]

theorem bumped_of_notMem {made : List ReleaseInfo} {name : String} (h : ∀ release ∈ made, name ∉ release.names)
    (version : String → String) : bumped made version name = version name := by
  have hfind : made.find? (fun release => name ∈ release.names) = none :=
    List.find?_eq_none.mpr fun release hrelease => by simpa using h release hrelease
  rw [bumped, hfind]

include h hiterate' in
theorem bumpVersions_spec (hbatch : Batch crates (result.map heap.object)) {disk : Disk} {version : String → String}
    (hdisk : Consistent disk crates version) :
    ∃ disk', (bumpVersions iterate' heap result).run disk = .ok () disk' ∧
      Consistent disk' crates (bumped (result.map heap.object) version) ∧
      ∀ cell, (∀ release ∈ result.map heap.object, ∀ name ∈ release.names, ¬ States crates cell name) →
        disk'.version cell = disk.version cell := by
  have hmem : ∀ cell value, (cell, value) ∈ bumpWrites iterate' heap result ↔ _ := fun _ _ =>
    mem_bumpWrites h hiterate' hbatch
  -- a cell holds the versions of crates of one release only
  have honly : ∀ cell a b, States crates cell a → States crates cell b → ∀ release ∈ result.map heap.object,
      a ∈ release.names → b ∈ release.names := fun cell a b ha hb release hrelease hname =>
    hbatch.together release hrelease a hname b (ha.together h hb)
  have hagree : Agree (bumpWrites iterate' heap result) := by
    intro cell value value' hvalue hvalue'
    obtain ⟨release, hrelease, rfl, a, ha, hstates⟩ := (hmem cell value).mp hvalue
    obtain ⟨release', hrelease', rfl, b, hb, hstates'⟩ := (hmem cell value').mp hvalue'
    have hname := honly cell a b hstates hstates' release hrelease ha
    rw [hbatch.disjoint release hrelease release' hrelease' b hname hb]
  have hnot : ∀ cell, (∀ release ∈ result.map heap.object, ∀ name ∈ release.names, ¬ States crates cell name) →
      ∀ write ∈ bumpWrites iterate' heap result, write.1 ≠ cell := by
    rintro cell hcell ⟨_, value⟩ hwrite rfl
    obtain ⟨release, hrelease, _, name, hname, hstates⟩ := (hmem _ value).mp hwrite
    exact hcell release hrelease name hname hstates
  obtain ⟨disk', hok, hread⟩ := bumpVersions_writes iterate' heap result disk fun ⟨cell, value⟩ hwrite => by
    obtain ⟨_, _, _, name, _, hstates⟩ := (hmem cell value).mp hwrite
    rw [hdisk cell name hstates]
    rfl
  refine ⟨disk', hok, fun cell name hstates => ?_, fun cell hcell => ?_⟩
  · rw [hread]
    by_cases hmade : ∃ release ∈ result.map heap.object, name ∈ release.names
    · obtain ⟨release, hrelease, hname⟩ := hmade
      rw [bumped_of_mem hbatch hrelease hname]
      exact written_of_mem hagree ((hmem cell _).mpr ⟨release, hrelease, rfl, name, hname, hstates⟩) _
    · have hnone : ∀ release ∈ result.map heap.object, name ∉ release.names := fun release hrelease hname =>
        hmade ⟨release, hrelease, hname⟩
      rw [bumped_of_notMem hnone, written_of_notMem (hnot cell ?_), hdisk cell name hstates]
      exact fun release hrelease a ha hstates' =>
        hnone release hrelease (honly cell a name hstates' hstates release hrelease ha)
  · rw [hread, written_of_notMem (hnot cell hcell)]

end Writes

end Cells

/-! ### From the crates to the releases -/

theorem crates_gatherRelease {semver : Semver} {env : Environment} {crates independentCrates : List CrateInfo}
    {prerelease : Option String} {skipSlow : Bool} {release : ReleaseInfo}
    (h : gatherRelease semver env crates independentCrates prerelease skipSlow = .ok release) :
    release.crates = crates := by
  unfold gatherRelease at h
  generalize theOnly crates = only at h
  dsimp only at h
  split at h
  · cases only with
    | some crate =>
      obtain ⟨old, _, h⟩ := bind_eq_ok.mp h
      obtain ⟨created, _, h⟩ := bind_eq_ok.mp h
      cases h
      rfl
    | none =>
      dsimp only at h
      split at h
      · obtain ⟨old, _, h⟩ := bind_eq_ok.mp h
        obtain ⟨created, _, h⟩ := bind_eq_ok.mp h
        cases h
        rfl
      · cases h
  · cases h

/-- Each independent crate has a release of its own, and the others have one together. -/
structure Gathered (crates : List CrateInfo) (own : List ReleaseInfo) (grouped : ReleaseInfo) : Prop where
  own : own.map ReleaseInfo.crates = (crates.filter fun crate => crate.independent).map fun crate => [crate]
  grouped : grouped.crates = crates.filter fun crate => !crate.independent

theorem gatherReleases_spec {semver : Semver} {env : Environment} {crates : List CrateInfo} {args : Args}
    {releases : List ReleaseInfo} (h : gatherReleases semver env crates args = .ok releases) :
    ∃ own grouped, releases = own ++ [grouped] ∧ Gathered crates own grouped := by
  unfold gatherReleases at h
  obtain ⟨own, hown, h⟩ := bind_eq_ok.mp h
  obtain ⟨grouped, hgrouped, h⟩ := bind_eq_ok.mp h
  refine ⟨own, grouped, (Except.ok.inj h).symm, ?_, crates_gatherRelease hgrouped⟩
  have hcrates := (forall₂_of_mapM_eq_ok hown).imp fun _ _ h => (crates_gatherRelease h).symm
  exact (map_eq_of_forall₂ hcrates).symm

section Gathered
variable {crates : List CrateInfo} {own : List ReleaseInfo} {grouped : ReleaseInfo}
  (h : CrateWorkspace crates) (hgathered : Gathered crates own grouped)

include hgathered

theorem Gathered.of_mem_own {release : ReleaseInfo} (hrelease : release ∈ own) :
    ∃ crate ∈ crates, crate.independent = true ∧ release.crates = [crate] := by
  have hmem : release.crates ∈ own.map ReleaseInfo.crates := List.mem_map_of_mem hrelease
  rw [hgathered.own] at hmem
  obtain ⟨crate, hcrate, hcrates⟩ := List.mem_map.mp hmem
  obtain ⟨hcrate, hindependent⟩ := List.mem_filter.mp hcrate
  exact ⟨crate, hcrate, hindependent, hcrates.symm⟩

theorem Gathered.exists_release {crate : CrateInfo} (hcrate : crate ∈ crates) :
    ∃ release ∈ own ++ [grouped], crate ∈ release.crates := by
  cases hindependent : crate.independent with
  | true =>
    have hmem : [crate] ∈ own.map ReleaseInfo.crates := by
      rw [hgathered.own]
      exact List.mem_map_of_mem (List.mem_filter.mpr ⟨hcrate, hindependent⟩)
    obtain ⟨release, hrelease, hcrates⟩ := List.mem_map.mp hmem
    exact ⟨release, List.mem_append_left _ hrelease, hcrates ▸ List.mem_singleton_self _⟩
  | false =>
    refine ⟨grouped, by simp, ?_⟩
    rw [hgathered.grouped]
    exact List.mem_filter.mpr ⟨hcrate, by simp [hindependent]⟩

theorem Gathered.names_perm : ((own ++ [grouped]).flatMap ReleaseInfo.names).Perm (crates.map CrateInfo.name) := by
  have hnames : ((own ++ [grouped]).flatMap ReleaseInfo.names) =
      ((own ++ [grouped]).map ReleaseInfo.crates).flatten.map CrateInfo.name := by
    rw [List.map_flatten, List.map_map, List.flatMap_def]
    rfl
  have hflatten : ((crates.filter fun crate => crate.independent).map fun crate => [crate]).flatten =
      crates.filter fun crate => crate.independent := by
    rw [← List.flatMap_def, List.flatMap_singleton']
  rw [hnames, List.map_append, hgathered.own, List.map_singleton, hgathered.grouped, List.flatten_append, hflatten,
    List.flatten_singleton]
  exact (List.filter_append_perm (fun crate => crate.independent) crates).map CrateInfo.name

theorem Gathered.member {release : ReleaseInfo} (hrelease : release ∈ own ++ [grouped]) {crate : CrateInfo}
    (hcrate : crate ∈ release.crates) : crate ∈ crates := by
  rcases List.mem_append.mp hrelease with hown | hgrouped
  · obtain ⟨other, hother, _, hcrates⟩ := hgathered.of_mem_own hown
    rw [hcrates, List.mem_singleton] at hcrate
    exact hcrate ▸ hother
  · rw [List.mem_singleton.mp hgrouped, hgathered.grouped] at hcrate
    exact (List.mem_filter.mp hcrate).1

theorem Gathered.depends_iff {a b : String} : Depends (own ++ [grouped]) a b ↔
    ∃ crate ∈ crates, crate.name = a ∧ b ∈ crate.workspaceDependencies := by
  constructor
  · rintro ⟨release, hrelease, crate, hcrate, hname, hdependency⟩
    exact ⟨crate, hgathered.member hrelease hcrate, hname, hdependency⟩
  · rintro ⟨crate, hcrate, hname, hdependency⟩
    obtain ⟨release, hrelease, hmem⟩ := hgathered.exists_release hcrate
    exact ⟨release, hrelease, crate, hmem, hname, hdependency⟩

include h

theorem Gathered.single {release : ReleaseInfo} (hrelease : release ∈ own ++ [grouped]) :
    release ∈ own ∧ release.singleCrate = true ∨ release = grouped ∧ release.singleCrate = false := by
  rcases List.mem_append.mp hrelease with hown | hgrouped
  · obtain ⟨crate, _, _, hcrates⟩ := hgathered.of_mem_own hown
    exact .inl ⟨hown, by simp [ReleaseInfo.singleCrate, hcrates]⟩
  · have hlength := h.grouped
    rw [← hgathered.grouped] at hlength
    rw [List.mem_singleton.mp hgrouped]
    exact .inr ⟨rfl, decide_eq_false fun hone => by omega⟩

theorem Gathered.independent {release : ReleaseInfo} (hrelease : release ∈ own ++ [grouped]) {crate : CrateInfo}
    (hcrate : crate ∈ release.crates) : crate.independent = release.singleCrate := by
  rcases hgathered.single h hrelease with ⟨hown, hsingle⟩ | ⟨rfl, hsingle⟩
  · obtain ⟨other, _, hindependent, hcrates⟩ := hgathered.of_mem_own hown
    rw [hcrates, List.mem_singleton] at hcrate
    rw [hsingle, hcrate, hindependent]
  · rw [hgathered.grouped, List.mem_filter, Bool.not_eq_true'] at hcrate
    rw [hsingle, hcrate.2]

theorem Gathered.workspace : Workspace (own ++ [grouped]) where
  nonempty release hrelease hnil := by
    rcases hgathered.single h hrelease with ⟨hown, _⟩ | ⟨rfl, _⟩
    · obtain ⟨crate, _, _, hcrates⟩ := hgathered.of_mem_own hown
      rw [hcrates] at hnil
      cases hnil
    · have hlength := h.grouped
      rw [← hgathered.grouped, hnil] at hlength
      cases hlength
  names := hgathered.names_perm.nodup_iff.mpr h.names
  closed a b hdepends := by
    obtain ⟨crate, hcrate, _, hdependency⟩ := hgathered.depends_iff.mp hdepends
    exact hgathered.names_perm.mem_iff.mpr (h.closed crate hcrate b hdependency)
  acyclic a hcycle := h.acyclic a (hcycle.lift id fun _ _ => hgathered.depends_iff.mp)
  one release hrelease other hother hsingle hsingle' := by
    rcases hgathered.single h hrelease with ⟨_, htrue⟩ | ⟨rfl, _⟩
    · rw [hsingle] at htrue
      cases htrue
    rcases hgathered.single h hother with ⟨_, htrue⟩ | ⟨rfl, _⟩
    · rw [hsingle'] at htrue
      cases htrue
    rfl
  below release hrelease hsingle crate hcrate other hother b hb hdependency := by
    obtain ⟨dependency, hmem, rfl⟩ := List.mem_map.mp hb
    rw [← hgathered.independent h hother hmem]
    refine h.below crate (hgathered.member hrelease hcrate) ?_ dependency (hgathered.member hother hmem) hdependency
    rw [hgathered.independent h hrelease hcrate, hsingle]

/-- Crates that are released together are in one release. -/
theorem Gathered.together {release : ReleaseInfo} (hrelease : release ∈ own ++ [grouped]) {a b : String}
    (ha : a ∈ release.names) (htogether : Together crates a b) : b ∈ release.names := by
  rcases htogether with rfl | ⟨x, hx, y, hy, ⟨rfl, hxgrouped⟩, rfl, hygrouped⟩
  · exact ha
  · have hmem : ∀ crate ∈ crates, crate.independent = false → crate.name ∈ grouped.names := by
      intro crate hcrate hgrouped
      refine List.mem_map_of_mem ?_
      rw [hgathered.grouped]
      exact List.mem_filter.mpr ⟨hcrate, by simp [hgrouped]⟩
    have hlast : grouped ∈ own ++ [grouped] := by simp
    obtain rfl := eq_of_mem_of_nodup_flatMap (hgathered.workspace h).names hrelease hlast ha (hmem x hx hxgrouped)
    exact hmem y hy hygrouped

end Gathered

/-! ### From the releases to the new versions -/

/-- A release is made when one that it depends on is. -/
theorem Selected.of_depends {releases : List ReleaseInfo} (h : Workspace releases) {release origin : ReleaseInfo}
    (hrelease : release ∈ releases) (horigin : origin ∈ releases) {crate : CrateInfo} (hcrate : crate ∈ release.crates)
    {name : String} (hname : name ∈ origin.names) (hdependency : name ∈ crate.workspaceDependencies)
    (hselected : Selected releases origin) : Selected releases release := by
  have hstep : Depends releases crate.name name := ⟨release, hrelease, crate, hcrate, rfl, hdependency⟩
  have hcratename : crate.name ∈ release.names := List.mem_map_of_mem hcrate
  cases hsingle : origin.singleCrate with
  | true =>
    refine .inr ?_
    rcases hselected with hflag | ⟨first, hfirst, hflag, a, ha, b, hb, hchain⟩
    · exact ⟨origin, horigin, hflag, crate.name, hcratename, name, hname, .single hstep⟩
    · obtain ⟨only, honly, rfl⟩ := List.mem_map.mp ha
      rw [eq_of_singleCrate hsingle hname honly] at hchain
      exact ⟨first, hfirst, hflag, crate.name, hcratename, b, hb, .head hstep hchain⟩
  | false =>
    cases hsingle' : release.singleCrate with
    | true =>
      have hbelow := h.below release hrelease hsingle' crate hcrate origin horigin name hname hdependency
      rw [hsingle] at hbelow
      cases hbelow
    | false => rwa [h.one release hrelease origin horigin hsingle' hsingle]

theorem map_object_ofList (releases : List ReleaseInfo) :
    (List.range releases.length).map (Heap.ofList releases).object = releases := by
  refine List.ext_getElem (by simp) fun n hleft hright => ?_
  simp [Heap.ofList, List.getElem?_eq_getElem hright]

section Result
variable {crates : List CrateInfo} {own : List ReleaseInfo} {grouped : ReleaseInfo}
  (h : CrateWorkspace crates) (hgathered : Gathered crates own grouped)

open Classical in
include h hgathered in
/-- What `process_dependencies` returns is a batch. -/
theorem batch_of_made {semver : Semver} {sorted made : List ReleaseInfo} (hperm : sorted.Perm (own ++ [grouped]))
    (hmade : List.Forall₂ (Made semver sorted) (sorted.filter (Selected sorted ·)) made) : Batch crates made := by
  have hworkspace := hgathered.workspace h
  have hcrates : ∀ {release m : ReleaseInfo}, Made semver sorted release m → m.crates = release.crates :=
    fun h => by rw [h.same]
  have hright : ∀ m ∈ made, ∃ release ∈ own ++ [grouped], Selected sorted release ∧ Made semver sorted release m := by
    intro m hm
    obtain ⟨release, hrelease, hmade⟩ := exists_mem_of_forall₂ hmade hm
    obtain ⟨hrelease, hselected⟩ := List.mem_filter.mp hrelease
    exact ⟨release, hperm.mem_iff.mp hrelease, of_decide_eq_true hselected, hmade⟩
  have hleft : ∀ release ∈ own ++ [grouped], Selected sorted release → ∃ m ∈ made, m.crates = release.crates := by
    intro release hrelease hselected
    have hmem : release ∈ sorted.filter (Selected sorted ·) :=
      List.mem_filter.mpr ⟨hperm.mem_iff.mpr hrelease, decide_eq_true hselected⟩
    obtain ⟨m, hm, hmade⟩ := exists_mem_of_forall₂ hmade.flip hmem
    exact ⟨m, hm, hcrates hmade⟩
  have hnodup : (made.flatMap ReleaseInfo.names).Nodup := by
    have hnames : (sorted.filter (Selected sorted ·)).map ReleaseInfo.names = made.map ReleaseInfo.names :=
      map_eq_of_forall₂ (hmade.imp fun _ _ h => by rw [h.same]; rfl)
    rw [List.flatMap_def, ← hnames, ← List.flatMap_def]
    exact ((hworkspace.perm hperm).names).sublist (List.filter_sublist.flatMap _)
  refine ⟨fun m hm => ?_, fun m hm => ?_, fun m hm crate hcrate => ?_, fun m hm a ha b htogether => ?_,
    fun m hm m' hm' name hname hname' => eq_of_mem_of_nodup_flatMap hnodup hm hm' hname hname',
    fun crate hcrate m hm name hname hdependency => ?_⟩
  · obtain ⟨release, hrelease, _, hmade⟩ := hright m hm
    rw [hcrates hmade]
    exact hworkspace.nonempty release hrelease
  · obtain ⟨release, _, _, hmade⟩ := hright m hm
    rw [hmade.same]
  · obtain ⟨release, hrelease, _, hmade⟩ := hright m hm
    rw [hcrates hmade] at hcrate
    refine ⟨hgathered.member hrelease hcrate, ?_⟩
    rw [hgathered.independent h hrelease hcrate, ReleaseInfo.singleCrate, ReleaseInfo.singleCrate, hcrates hmade]
  · obtain ⟨release, hrelease, _, hmade⟩ := hright m hm
    rw [ReleaseInfo.names, hcrates hmade] at ha ⊢
    exact hgathered.together h hrelease ha htogether
  · obtain ⟨origin, horigin, hselected, hmade⟩ := hright m hm
    rw [ReleaseInfo.names, hcrates hmade] at hname
    obtain ⟨release, hrelease, hmem⟩ := hgathered.exists_release hcrate
    have hselected := Selected.of_depends (hworkspace.perm hperm) (hperm.mem_iff.mpr hrelease)
      (hperm.mem_iff.mpr horigin) hmem hname hdependency hselected
    obtain ⟨m', hm', heq⟩ := hleft release hrelease hselected
    exact ⟨m', hm', heq ▸ hmem⟩

end Result

end Tulpje.Release
