import Tulpje.Framework.Module
import Tulpje.Lib.Propagation
import Tulpje.Release.Model

/-!
# Releases and the crates that depend on them

`sort_releases_by_deps` and `process_dependencies`. Python objects are places of a heap, so that the releases of the
input and their copies are told apart. The topological order comes from `graphlib`, and a set is gone through in any
order.
-/

namespace Tulpje.Release

open Framework (HashMap)
open Lib

/-! ### Objects -/

abbrev Ref := Nat

/-- The places below `next` are taken. -/
structure Heap where
  object : Ref → ReleaseInfo
  next : Ref

namespace Heap

def alloc (heap : Heap) (release : ReleaseInfo) : Heap × Ref :=
  (⟨Function.update heap.object heap.next release, heap.next + 1⟩, heap.next)

def write (heap : Heap) (ref : Ref) (release : ReleaseInfo) : Heap :=
  { heap with object := Function.update heap.object ref release }

end Heap

/-! ### `sort_releases_by_deps` -/

/-- The entries of a dictionary from the names of crates to those of their dependencies, as they are inserted. -/
abbrev Graph := List (String × Finset String)

/-- The release of each crate, by name. -/
def releasesByCrate (heap : Heap) (releases : List Ref) : HashMap String Ref :=
  HashMap.collect <| releases.flatMap fun ref => (heap.object ref).crates.map fun crate => (crate.name, ref)

def dependencyGraph (heap : Heap) (releases : List Ref) : Graph :=
  releases.flatMap fun ref => (heap.object ref).crates.map fun crate => (crate.name, crate.workspaceDependencies)

/-- `releases_by_crate[name]`. -/
def releaseOf (byCrate : HashMap String Ref) (name : String) : Except PyError Ref :=
  match byCrate.lookup name with
  | some ref => .ok ref
  | none => .error (.keyError name)

/-- `release in releases`. -/
def isIn (heap : Heap) (ref : Ref) (releases : List Ref) : Bool :=
  releases.any fun other => other = ref || heap.object other == heap.object ref

def appendRelease (heap : Heap) (byCrate : HashMap String Ref) (releasesByDeps : List Ref) (name : String) :
    Except PyError (List Ref) := do
  let release ← releaseOf byCrate name
  pure (if isIn heap release releasesByDeps then releasesByDeps else releasesByDeps ++ [release])

/-- `staticOrder` is `TopologicalSorter(..).static_order()`. -/
def sortReleasesByDeps (staticOrder : Graph → Except PyError (List String)) (heap : Heap) (releases : List Ref) :
    Except PyError (List Ref) := do
  let byCrate := releasesByCrate heap releases
  let dependencyOrder ← staticOrder (dependencyGraph heap releases)
  dependencyOrder.foldlM (appendRelease heap byCrate) []

/-! ### `process_dependencies` -/

/-- `[ReleaseInfo(**release.__dict__) for release in releases]`. -/
def copyReleases (heap : Heap) (releases : List Ref) : Heap × List Ref :=
  releases.foldl (fun (heap, copies) ref =>
    let (heap, copy) := heap.alloc (heap.object ref)
    (heap, copies ++ [copy])) (heap, [])

/-- The crates that depend on the one of a name. -/
def dependedOnBy (heap : Heap) (releases : List Ref) (name : String) : Finset CrateInfo :=
  ((releases.flatMap fun ref => (heap.object ref).crates).filter fun crate =>
    name ∈ crate.workspaceDependencies).toFinset

/-- The release of a dependency is released, with a new version if it has none yet. -/
def requireRelease (semver : Semver) (release : ReleaseInfo) : ReleaseInfo :=
  let release := { release with shouldRelease := true }
  if !release.changed then { release with currVersion := semver.nextVersion release.currVersion "patch" }
  else release

section Process
variable (semver : Semver) (iterate : String → Finset CrateInfo → List CrateInfo)

def requireReleaseOf (byCrate : HashMap String Ref) (heap : Heap) (dependedCrate : CrateInfo) :
    Except PyError Heap := do
  let release ← releaseOf byCrate dependedCrate.name
  pure (heap.write release (requireRelease semver (heap.object release)))

/-- One round of the loop over the copies; `iterate` is the order of the set that is kept for a name. -/
def processRelease (byCrate : HashMap String Ref) (depended : String → Finset CrateInfo) (heap : Heap) (ref : Ref) :
    Except PyError Heap :=
  if (heap.object ref).shouldRelease then
    (heap.object ref).crates.foldlM (fun heap crate =>
      (iterate crate.name (depended crate.name)).foldlM (requireReleaseOf semver byCrate) heap) heap
  else .ok heap

def processDependencies (heap : Heap) (releasesByDeps : List Ref) : Except PyError (Heap × List Ref) := do
  let (heap', copies) := copyReleases heap releasesByDeps
  let byCrate := releasesByCrate heap' copies
  let depended := dependedOnBy heap releasesByDeps
  let heap' ← copies.foldlM (processRelease semver iterate byCrate depended) heap'
  pure (heap', copies.filter fun ref => (heap'.object ref).shouldRelease)

end Process

/-! ### What the two functions are for -/

/-- A crate of the name `a` has a dependency of the name `b`. -/
def Depends (releases : List ReleaseInfo) (a b : String) : Prop :=
  ∃ release ∈ releases, ∃ crate ∈ release.crates, crate.name = a ∧ b ∈ crate.workspaceDependencies

/-- A crate of the release depends through some crates on one of a release that is released anyway. -/
def DependsOnReleased (releases : List ReleaseInfo) (release : ReleaseInfo) : Prop :=
  ∃ origin ∈ releases, origin.shouldRelease = true ∧
    ∃ a ∈ release.names, ∃ b ∈ origin.names, Relation.TransGen (Depends releases) a b

/-- The release is one to make. -/
def Selected (releases : List ReleaseInfo) (release : ReleaseInfo) : Prop :=
  release.shouldRelease = true ∨ DependsOnReleased releases release

/-- A selected release is made with its next patch version if others of the selection require it, unless its version
is a new one already. Versions are equal to those with another build part, so that nothing is said of a version that
has one. -/
structure Made (semver : Semver) (releases : List ReleaseInfo) (release made : ReleaseInfo) : Prop where
  same : made = { release with shouldRelease := true, currVersion := made.currVersion }
  kept : ¬ (DependsOnReleased releases release ∧ release.changed = false) → made.currVersion = release.currVersion
  raised : DependsOnReleased releases release → release.changed = false → release.currVersion.build = none →
    made.currVersion = semver.nextVersion release.currVersion "patch"

/-- The releases that `main` gathers: each has a crate, no crate is in two of them, and dependencies are crates of
the workspace. One release may have several crates, and the others do not depend on it. -/
structure Workspace (releases : List ReleaseInfo) : Prop where
  nonempty : ∀ release ∈ releases, release.crates ≠ []
  names : (releases.flatMap ReleaseInfo.names).Nodup
  closed : ∀ a b, Depends releases a b → b ∈ releases.flatMap ReleaseInfo.names
  acyclic : ∀ a, ¬ Relation.TransGen (Depends releases) a a
  one : ∀ release ∈ releases, ∀ other ∈ releases,
    release.singleCrate = false → other.singleCrate = false → release = other
  below : ∀ release ∈ releases, release.singleCrate = true → ∀ crate ∈ release.crates,
    ∀ other ∈ releases, ∀ b ∈ other.names, b ∈ crate.workspaceDependencies → other.singleCrate = true

/-- Each node once, after the ones it depends on. -/
structure IsStaticOrder (graph : Graph) (order : List String) : Prop where
  nodup : order.Nodup
  mem : ∀ name, name ∈ order ↔ ∃ entry ∈ graph, name = entry.1 ∨ name ∈ entry.2
  before : ∀ pre name post, order = pre ++ name :: post → ∀ entry ∈ graph, entry.1 = name →
    ∀ dependency ∈ entry.2, dependency ∈ pre

/-! ### Copies -/

/-- The copies are new objects with the values of the originals, which stay as they are. -/
structure Copied (heap : Heap) (releases : List Ref) (heap' : Heap) (copies : List Ref) : Prop where
  originals : ∀ ref < heap.next, heap'.object ref = heap.object ref
  values : copies.map heap'.object = releases.map heap.object
  nodup : copies.Nodup
  new : ∀ copy ∈ copies, heap.next ≤ copy ∧ copy < heap'.next
  next : heap.next ≤ heap'.next

theorem copied {heap : Heap} {releases : List Ref} (hvalid : ∀ ref ∈ releases, ref < heap.next) :
    Copied heap releases (copyReleases heap releases).1 (copyReleases heap releases).2 := by
  induction releases using List.reverseRecOn with
  | nil => exact ⟨fun _ _ => rfl, rfl, List.nodup_nil, nofun, Nat.le_refl _⟩
  | append_singleton releases ref ih =>
    have ih := ih fun ref href => hvalid ref (List.mem_append_left _ href)
    have href : ref < heap.next := hvalid ref (by simp)
    unfold copyReleases at ih ⊢
    rw [List.foldl_append, List.foldl_cons, List.foldl_nil]
    generalize List.foldl _ (heap, []) releases = state at ih ⊢
    obtain ⟨heap', copies⟩ := state
    have hfresh : ∀ copy < heap'.next, Function.update heap'.object heap'.next (heap'.object ref) copy =
        heap'.object copy := fun copy hcopy => Function.update_of_ne (Nat.ne_of_lt hcopy) ..
    refine ⟨fun other hother => ?_, ?_, ?_, fun copy hcopy => ?_, Nat.le_succ_of_le ih.next⟩
    · exact (hfresh other (Nat.lt_of_lt_of_le hother ih.next)).trans (ih.originals other hother)
    · have hold : copies.map (Function.update heap'.object heap'.next (heap'.object ref)) =
          copies.map heap'.object :=
        List.map_congr_left fun copy hcopy => hfresh copy (ih.new copy hcopy).2
      have hvalue : heap'.object ref = heap.object ref := ih.originals ref href
      simp only [Heap.alloc, List.map_append, List.map_singleton, Function.update_self, hold, ih.values]
      rw [hvalue]
    · refine List.nodup_append.mpr ⟨ih.nodup, List.nodup_singleton _, fun copy hcopy other hother => ?_⟩
      rw [List.mem_singleton.mp hother]
      exact Nat.ne_of_lt (ih.new copy hcopy).2
    · rcases List.mem_append.mp hcopy with hcopy | hcopy
      · have hnew := ih.new copy hcopy
        exact ⟨hnew.1, Nat.lt_succ_of_lt hnew.2⟩
      · rw [List.mem_singleton.mp hcopy]
        exact ⟨ih.next, Nat.lt_succ_self _⟩

/-! ### The dictionary -/

theorem eq_of_mem_names {object : Ref → ReleaseInfo} {releases : List Ref}
    (hnames : ((releases.map object).flatMap ReleaseInfo.names).Nodup) {ref ref' : Ref} (href : ref ∈ releases)
    (href' : ref' ∈ releases) {name : String} (hname : name ∈ (object ref).names)
    (hname' : name ∈ (object ref').names) : ref = ref' := by
  rw [List.flatMap_map] at hnames
  exact eq_of_mem_of_nodup_flatMap hnames href href' hname hname'

section Dictionary
variable {heap : Heap} {releases : List Ref} (hnames : ((releases.map heap.object).flatMap ReleaseInfo.names).Nodup)

theorem mem_entries {name : String} {ref : Ref} :
    (name, ref) ∈ (releases.flatMap fun ref => (heap.object ref).crates.map fun crate => (crate.name, ref)) ↔
      ref ∈ releases ∧ name ∈ (heap.object ref).names := by
  simp only [List.mem_flatMap, List.mem_map, Prod.mk.injEq, ReleaseInfo.names]
  constructor
  · rintro ⟨_, href, crate, hcrate, rfl, rfl⟩
    exact ⟨href, crate, hcrate, rfl⟩
  · rintro ⟨href, crate, hcrate, rfl⟩
    exact ⟨ref, href, crate, hcrate, rfl, rfl⟩

include hnames in
theorem lookup_releasesByCrate {name : String} {ref : Ref} :
    (releasesByCrate heap releases).lookup name = some ref ↔
      ref ∈ releases ∧ name ∈ (heap.object ref).names := by
  rw [← mem_entries]
  constructor
  · exact HashMap.mem_of_lookup_collect
  · intro hentry
    have hkey : name ∈ releasesByCrate heap releases :=
      HashMap.mem_collect.mpr (List.mem_map_of_mem hentry)
    obtain ⟨ref', hlookup⟩ := Finmap.mem_iff.mp hkey
    have hentry' := mem_entries.mp (HashMap.mem_of_lookup_collect hlookup)
    have hentry := mem_entries.mp hentry
    rw [hlookup, eq_of_mem_names hnames hentry'.1 hentry.1 hentry'.2 hentry.2]

end Dictionary

/-! ### Sorting -/

section Sorting
variable {heap : Heap} {releases : List Ref}

/-- The releases of the crates so far, each after the releases that its crate depends on if it has only one. -/
structure SortedUpTo (heap : Heap) (releases : List Ref) (names : List String) (sorted : List Ref) : Prop where
  nodup : sorted.Nodup
  mem : ∀ ref, ref ∈ sorted ↔ ref ∈ releases ∧ ∃ name ∈ names, name ∈ (heap.object ref).names
  before : ∀ pre ref post, sorted = pre ++ ref :: post → (heap.object ref).singleCrate = true →
    ∀ crate ∈ (heap.object ref).crates, ∀ b ∈ crate.workspaceDependencies,
      ∃ other ∈ pre, b ∈ (heap.object other).names

theorem isIn_iff (h : Workspace (releases.map heap.object)) {ref : Ref} (href : ref ∈ releases) {sorted : List Ref}
    (hsorted : ∀ other ∈ sorted, other ∈ releases) : isIn heap ref sorted = true ↔ ref ∈ sorted := by
  unfold isIn
  rw [List.any_eq_true]
  constructor
  · rintro ⟨other, hother, heq⟩
    rcases Bool.or_eq_true_iff.mp heq with heq | heq
    · rwa [← of_decide_eq_true heq]
    · -- an equal release has a crate of the same name
      have hnames := ReleaseInfo.names_eq_of_beq heq
      obtain ⟨crate, hcrate⟩ := List.exists_mem_of_ne_nil _
        (h.nonempty (heap.object ref) (List.mem_map_of_mem href))
      have hname : crate.name ∈ (heap.object ref).names := List.mem_map_of_mem hcrate
      rwa [eq_of_mem_names h.names href (hsorted other hother) hname (hnames ▸ hname)]
  · exact fun hmem => ⟨ref, hmem, by simp⟩

theorem mem_dependencyGraph {name : String} {dependencies : Finset String} :
    (name, dependencies) ∈ dependencyGraph heap releases ↔
      ∃ ref ∈ releases, ∃ crate ∈ (heap.object ref).crates,
        crate.name = name ∧ crate.workspaceDependencies = dependencies := by
  simp only [dependencyGraph, List.mem_flatMap, List.mem_map, Prod.mk.injEq]

theorem exists_mem_names (h : Workspace (releases.map heap.object)) {order : List String}
    (horder : IsStaticOrder (dependencyGraph heap releases) order) {name : String} (hname : name ∈ order) :
    ∃ ref ∈ releases, name ∈ (heap.object ref).names := by
  obtain ⟨⟨crateName, dependencies⟩, hentry, heq⟩ := (horder.mem name).mp hname
  obtain ⟨ref, href, crate, hcrate, rfl, rfl⟩ := mem_dependencyGraph.mp hentry
  rcases heq with rfl | hdependency
  · exact ⟨ref, href, List.mem_map_of_mem hcrate⟩
  · have hclosed := h.closed crate.name name ⟨_, List.mem_map_of_mem href, crate, hcrate, rfl, hdependency⟩
    rw [List.flatMap_map] at hclosed
    exact List.mem_flatMap.mp hclosed

section Step
variable {names : List String} {sorted : List Ref} {name : String} {ref : Ref}

/-- The releases of one more crate. -/
theorem SortedUpTo.mem_concat (h : Workspace (releases.map heap.object))
    (hsorted : SortedUpTo heap releases names sorted) (href : ref ∈ releases)
    (hname : name ∈ (heap.object ref).names) (other : Ref) :
    (other ∈ sorted ∨ other = ref) ↔
      other ∈ releases ∧ ∃ name' ∈ names ++ [name], name' ∈ (heap.object other).names := by
  simp only [hsorted.mem, List.mem_append, List.mem_singleton, or_and_right, exists_or, exists_eq_left]
  constructor
  · rintro (⟨hother, hold⟩ | rfl)
    · exact ⟨hother, .inl hold⟩
    · exact ⟨href, .inr hname⟩
  · rintro ⟨hother, hold | hnew⟩
    · exact .inl ⟨hother, hold⟩
    · exact .inr (eq_of_mem_names h.names hother href hnew hname)

theorem SortedUpTo.seen (h : Workspace (releases.map heap.object)) (hsorted : SortedUpTo heap releases names sorted)
    (href : ref ∈ releases) (hname : name ∈ (heap.object ref).names) (hseen : ref ∈ sorted) :
    SortedUpTo heap releases (names ++ [name]) sorted where
  nodup := hsorted.nodup
  mem other := by
    rw [← hsorted.mem_concat h href hname]
    exact (or_iff_left_of_imp fun heq => heq ▸ hseen).symm
  before := hsorted.before

theorem SortedUpTo.concat (h : Workspace (releases.map heap.object)) (hsorted : SortedUpTo heap releases names sorted)
    (href : ref ∈ releases) (hname : name ∈ (heap.object ref).names) (hnew : ref ∉ sorted)
    (hbefore : (heap.object ref).singleCrate = true → ∀ crate ∈ (heap.object ref).crates,
      ∀ b ∈ crate.workspaceDependencies, ∃ other ∈ sorted, b ∈ (heap.object other).names) :
    SortedUpTo heap releases (names ++ [name]) (sorted ++ [ref]) where
  nodup := by
    refine List.nodup_append.mpr ⟨hsorted.nodup, List.nodup_singleton _, fun other hother last hlast heq => ?_⟩
    rw [heq, List.mem_singleton.mp hlast] at hother
    exact hnew hother
  mem other := by rw [← hsorted.mem_concat h href hname, List.mem_append, List.mem_singleton]
  before pre other rest heq hsingle := by
    rcases List.eq_nil_or_concat rest with rfl | ⟨rest, last, rfl⟩
    · obtain ⟨rfl, hlast⟩ := List.append_inj' heq rfl
      obtain rfl : ref = other := List.singleton_inj.mp hlast
      exact hbefore hsingle
    · have heq' : sorted ++ [ref] = (pre ++ other :: rest) ++ [last] := by simpa using heq
      exact hsorted.before pre other rest (List.append_inj' heq' rfl).1 hsingle

/-- The crate of a release with only one is the one of its name. -/
theorem eq_of_singleCrate {release : ReleaseInfo} (hsingle : release.singleCrate = true)
    (hname : name ∈ release.names) {crate : CrateInfo} (hcrate : crate ∈ release.crates) : crate.name = name := by
  obtain ⟨only, honly⟩ := List.length_eq_one_iff.mp (of_decide_eq_true hsingle)
  rw [ReleaseInfo.names, honly, List.map_singleton, List.mem_singleton] at hname
  rw [honly, List.mem_singleton] at hcrate
  rw [hname, hcrate]

end Step

theorem sortedUpTo (h : Workspace (releases.map heap.object)) {order : List String}
    (horder : IsStaticOrder (dependencyGraph heap releases) order) {names post : List String}
    (hsplit : order = names ++ post) :
    ∃ sorted, names.foldlM (appendRelease heap (releasesByCrate heap releases)) [] = .ok sorted ∧
      SortedUpTo heap releases names sorted := by
  induction names using List.reverseRecOn generalizing post with
  | nil => exact ⟨[], rfl, List.nodup_nil, by simp, by simp⟩
  | append_singleton names name ih =>
    have hcons : order = names ++ name :: post := by rw [hsplit, List.append_assoc, List.singleton_append]
    obtain ⟨sorted, hfold, hsorted⟩ := ih hcons
    have hmem : name ∈ order := by simp [hcons]
    obtain ⟨ref, href, hname⟩ := exists_mem_names h horder hmem
    have hstep : appendRelease heap (releasesByCrate heap releases) sorted name =
        .ok (if isIn heap ref sorted then sorted else sorted ++ [ref]) := by
      rw [appendRelease, releaseOf, (lookup_releasesByCrate h.names).mpr ⟨href, hname⟩]
      rfl
    have hin := isIn_iff h href fun other hother => ((hsorted.mem other).mp hother).1
    by_cases hseen : ref ∈ sorted
    · rw [if_pos (hin.mpr hseen)] at hstep
      exact ⟨sorted, foldlM_concat_eq_ok hfold hstep, hsorted.seen h href hname hseen⟩
    · rw [if_neg fun hmem => hseen (hin.mp hmem)] at hstep
      refine ⟨sorted ++ [ref], foldlM_concat_eq_ok hfold hstep, hsorted.concat h href hname hseen ?_⟩
      intro hsingle crate hcrate b hb
      have hentry := mem_dependencyGraph.mpr ⟨ref, href, crate, hcrate, rfl, rfl⟩
      have hbefore := horder.before names name post hcons _ hentry (eq_of_singleCrate hsingle hname hcrate) b hb
      have hbmem : b ∈ order := by simp [hcons, hbefore]
      obtain ⟨other, hother, hbname⟩ := exists_mem_names h horder hbmem
      exact ⟨other, (hsorted.mem other).mpr ⟨hother, b, hbefore, hbname⟩, hbname⟩

theorem nodup_releases (h : Workspace (releases.map heap.object)) : releases.Nodup := by
  have hnames := h.names
  rw [List.flatMap_map] at hnames
  refine (List.nodup_flatMap.mp hnames).2.imp_of_mem fun {ref other} href _ hdisjoint heq => ?_
  obtain ⟨crate, hcrate⟩ := List.exists_mem_of_ne_nil _ (h.nonempty (heap.object ref) (List.mem_map_of_mem href))
  have hname : crate.name ∈ (heap.object ref).names := List.mem_map_of_mem hcrate
  exact hdisjoint hname (heq ▸ hname)

/-- Sorting returns all releases, each once. -/
theorem sortReleasesByDeps_spec (h : Workspace (releases.map heap.object))
    {staticOrder : Graph → Except PyError (List String)} {order : List String}
    (hstatic : staticOrder (dependencyGraph heap releases) = .ok order)
    (horder : IsStaticOrder (dependencyGraph heap releases) order) :
    ∃ sorted, sortReleasesByDeps staticOrder heap releases = .ok sorted ∧ sorted.Perm releases ∧
      SortedUpTo heap releases order sorted := by
  obtain ⟨sorted, hfold, hsorted⟩ := sortedUpTo h horder (List.append_nil order).symm
  refine ⟨sorted, ?_, ?_, hsorted⟩
  · rw [sortReleasesByDeps, hstatic]
    exact hfold
  · refine (List.perm_ext_iff_of_nodup hsorted.nodup (nodup_releases h)).mpr fun ref => ?_
    rw [hsorted.mem]
    refine and_iff_left_of_imp fun href => ?_
    obtain ⟨crate, hcrate⟩ := List.exists_mem_of_ne_nil _ (h.nonempty (heap.object ref) (List.mem_map_of_mem href))
    have hentry := mem_dependencyGraph.mpr ⟨ref, href, crate, hcrate, rfl, rfl⟩
    exact ⟨crate.name, (horder.mem crate.name).mpr ⟨_, hentry, .inl rfl⟩, List.mem_map_of_mem hcrate⟩

end Sorting

/-! ### The loop over the copies -/

section Loop
variable {semver : Semver} {iterate : String → Finset CrateInfo → List CrateInfo} {byCrate : HashMap String Ref}
  {depended : String → Finset CrateInfo}

/-- The releases that a round of the loop requires. -/
def dependents (iterate : String → Finset CrateInfo → List CrateInfo) (byCrate : HashMap String Ref)
    (depended : String → Finset CrateInfo) (release : ReleaseInfo) : List Ref :=
  release.crates.flatMap fun crate =>
    (iterate crate.name (depended crate.name)).filterMap fun dependedCrate => byCrate.lookup dependedCrate.name

def visitRelease (semver : Semver) (iterate : String → Finset CrateInfo → List CrateInfo)
    (byCrate : HashMap String Ref) (depended : String → Finset CrateInfo) :
    (Ref → ReleaseInfo) → Ref → Ref → ReleaseInfo :=
  Propagation.visit ReleaseInfo.shouldRelease (requireRelease semver) (dependents iterate byCrate depended)

/-- Each crate of a list has a release. -/
def AllReleased (byCrate : HashMap String Ref) (crates : List CrateInfo) : Prop :=
  ∀ crate ∈ crates, ∃ ref, byCrate.lookup crate.name = some ref

def requireAll (semver : Semver) (object : Ref → ReleaseInfo) (refs : List Ref) : Ref → ReleaseInfo :=
  refs.foldl (fun s ref => Function.update s ref (requireRelease semver (s ref))) object

theorem requireAll_append (object : Ref → ReleaseInfo) (refs refs' : List Ref) :
    requireAll semver object (refs ++ refs') = requireAll semver (requireAll semver object refs) refs' :=
  List.foldl_append

theorem requireReleaseOf_foldlM (crates : List CrateInfo) (hcrates : AllReleased byCrate crates) (heap : Heap) :
    crates.foldlM (requireReleaseOf semver byCrate) heap =
      .ok ⟨requireAll semver heap.object (crates.filterMap fun crate => byCrate.lookup crate.name), heap.next⟩ := by
  induction crates generalizing heap with
  | nil => rfl
  | cons crate crates ih =>
    obtain ⟨⟨ref, href⟩, hcrates⟩ := List.forall_mem_cons.mp hcrates
    have hlookup : (crate :: crates).filterMap (fun crate => byCrate.lookup crate.name) =
        ref :: crates.filterMap fun crate => byCrate.lookup crate.name := List.filterMap_cons_some href
    rw [List.foldlM_cons, hlookup]
    simp only [requireReleaseOf, releaseOf, href]
    exact ih hcrates _

theorem processRelease_eq (hall : ∀ name, AllReleased byCrate (iterate name (depended name))) (heap : Heap)
    (ref : Ref) : processRelease semver iterate byCrate depended heap ref =
      .ok ⟨visitRelease semver iterate byCrate depended heap.object ref, heap.next⟩ := by
  have hcrates : ∀ (crates : List CrateInfo) (heap : Heap), crates.foldlM (fun heap crate =>
      (iterate crate.name (depended crate.name)).foldlM (requireReleaseOf semver byCrate) heap) heap =
      .ok ⟨requireAll semver heap.object (crates.flatMap fun crate =>
        (iterate crate.name (depended crate.name)).filterMap fun dependedCrate =>
          byCrate.lookup dependedCrate.name), heap.next⟩ := by
    intro crates
    induction crates with
    | nil => exact fun heap => rfl
    | cons crate crates ih =>
      intro heap
      rw [List.foldlM_cons, requireReleaseOf_foldlM _ (hall crate.name), List.flatMap_cons, requireAll_append]
      exact ih _
  unfold processRelease visitRelease Propagation.visit
  split
  · exact hcrates _ heap
  · rfl

theorem processReleases_eq (hall : ∀ name, AllReleased byCrate (iterate name (depended name))) (copies : List Ref)
    (heap : Heap) : copies.foldlM (processRelease semver iterate byCrate depended) heap =
      .ok ⟨copies.foldl (visitRelease semver iterate byCrate depended) heap.object, heap.next⟩ := by
  induction copies generalizing heap with
  | nil => rfl
  | cons ref copies ih =>
    rw [List.foldlM_cons, processRelease_eq hall, List.foldl_cons]
    exact ih _

end Loop

/-! ### Dependencies of releases -/

theorem mem_dependedOnBy {heap : Heap} {releases : List Ref} {name : String} {crate : CrateInfo} :
    crate ∈ dependedOnBy heap releases name ↔
      (∃ release ∈ releases.map heap.object, crate ∈ release.crates) ∧ name ∈ crate.workspaceDependencies := by
  simp [dependedOnBy]

theorem requireRelease_eq (semver : Semver) (release : ReleaseInfo) : requireRelease semver release =
    { release with
      shouldRelease := true
      currVersion := if release.changed = false then semver.nextVersion release.currVersion "patch"
        else release.currVersion } := by
  have hchanged : ({ release with shouldRelease := true } : ReleaseInfo).changed = release.changed := rfl
  unfold requireRelease
  dsimp only
  rw [hchanged]
  cases release.changed <;> rfl

/-- A version that comes after the old one is not raised again. -/
theorem requireRelease_iterate {semver : Semver} (hnext : ∀ v, v.build = none → v < semver.nextVersion v "patch")
    (release : ReleaseInfo) (k : ℕ) :
    ∃ version, (requireRelease semver)^[k + 1] release =
        { release with shouldRelease := true, currVersion := version } ∧
      (release.changed = true → version = release.currVersion) ∧
      (release.changed = false → release.currVersion.build = none →
        version = semver.nextVersion release.currVersion "patch") := by
  induction k with
  | zero =>
    refine ⟨_, requireRelease_eq semver release, fun hchanged => ?_, fun hchanged _ => if_pos hchanged⟩
    exact if_neg (Bool.not_eq_false _ ▸ hchanged)
  | succ k ih =>
    obtain ⟨version, hiterate, hkept, hraised⟩ := ih
    rw [Function.iterate_succ_apply', hiterate, requireRelease_eq]
    have hchanged : ({ release with shouldRelease := true, currVersion := version } : ReleaseInfo).changed =
        (release.prevVersion != version) := rfl
    refine ⟨_, rfl, fun h => ?_, fun h hbuild => ?_⟩
    · obtain rfl := hkept h
      exact if_neg (Bool.not_eq_false _ ▸ h)
    · obtain rfl := hraised h hbuild
      have hbne : (release.prevVersion != semver.nextVersion release.currVersion "patch") = true :=
        Version.bne_of_lt (by simpa [ReleaseInfo.changed, bne] using h) (hnext _ hbuild)
      exact if_neg (by rw [hchanged, hbne]; exact Bool.noConfusion)

theorem stable (semver : Semver) (iterate : String → Finset CrateInfo → List CrateInfo) (byCrate : HashMap String Ref)
    (depended : String → Finset CrateInfo) :
    Propagation.Stable ReleaseInfo.shouldRelease (requireRelease semver) (dependents iterate byCrate depended) where
  flags release := by rw [requireRelease_eq]
  keeps release := by
    rw [requireRelease_eq]
    rfl

section Reach
variable {object : Ref → ReleaseInfo} {nodes : List Ref} {iterate : String → Finset CrateInfo → List CrateInfo}
  {depended : String → Finset CrateInfo} {byCrate : HashMap String Ref}

/-- What the loop knows about the releases. -/
structure Known (object : Ref → ReleaseInfo) (nodes : List Ref) (byCrate : HashMap String Ref)
    (depended : String → Finset CrateInfo) (iterate : String → Finset CrateInfo → List CrateInfo) : Prop where
  workspace : Workspace (nodes.map object)
  lookup : ∀ name ref, byCrate.lookup name = some ref ↔ ref ∈ nodes ∧ name ∈ (object ref).names
  depended : ∀ name crate, crate ∈ depended name ↔
    (∃ release ∈ nodes.map object, crate ∈ release.crates) ∧ name ∈ crate.workspaceDependencies
  iterate : ∀ name crates crate, crate ∈ iterate name crates ↔ crate ∈ crates

variable (h : Known object nodes byCrate depended iterate)

include h

theorem Known.mem_dependents {r s : Ref} : r ∈ dependents iterate byCrate depended (object s) ↔
    r ∈ nodes ∧ ∃ a ∈ (object r).names, ∃ b ∈ (object s).names, Depends (nodes.map object) a b := by
  simp only [dependents, List.mem_flatMap, List.mem_filterMap, h.iterate, h.depended, h.lookup]
  constructor
  · rintro ⟨crate, hcrate, other, ⟨⟨release, hrelease, hother⟩, hdep⟩, hr, hname⟩
    exact ⟨hr, other.name, hname, crate.name, List.mem_map_of_mem hcrate, release, hrelease, other, hother, rfl, hdep⟩
  · rintro ⟨hr, a, ha, b, hb, release, hrelease, other, hother, rfl, hdep⟩
    obtain ⟨crate, hcrate, rfl⟩ := List.mem_map.mp hb
    exact ⟨crate, hcrate, other, ⟨⟨release, hrelease, hother⟩, hdep⟩, hr, ha⟩

theorem Known.edge_iff {r s : Ref} :
    Propagation.Edge (dependents iterate byCrate depended) nodes object r s ↔
      s ∈ nodes ∧ r ∈ nodes ∧ ∃ a ∈ (object r).names, ∃ b ∈ (object s).names, Depends (nodes.map object) a b := by
  rw [Propagation.Edge, h.mem_dependents]

/-- A dependency on the release of several crates is its own. -/
theorem Known.eq_of_edge {r s : Ref} (hs : (object s).singleCrate = false)
    (hedge : Propagation.Edge (dependents iterate byCrate depended) nodes object r s) : object r = object s := by
  obtain ⟨hsmem, hrmem, a, ha, b, hb, release, hrelease, crate, hcrate, rfl, hdep⟩ := h.edge_iff.mp hedge
  have hsobject : object s ∈ nodes.map object := List.mem_map_of_mem hsmem
  have hrobject : object r ∈ nodes.map object := List.mem_map_of_mem hrmem
  obtain rfl : release = object r :=
    eq_of_mem_of_nodup_flatMap h.workspace.names hrelease hrobject (List.mem_map_of_mem hcrate) ha
  cases hr : (object r).singleCrate with
  | true =>
    have hsingle := h.workspace.below _ hrobject hr crate hcrate _ hsobject b hb hdep
    rw [hs] at hsingle
    cases hsingle
  | false => exact h.workspace.one _ hrobject _ hsobject hr hs

/-- Chains of crates are chains of releases. -/
theorem Known.transGen_edge {a b : String} (hpath : Relation.TransGen (Depends (nodes.map object)) a b) {r o : Ref}
    (hr : r ∈ nodes) (ha : a ∈ (object r).names) (ho : o ∈ nodes) (hb : b ∈ (object o).names) :
    Relation.TransGen (Propagation.Edge (dependents iterate byCrate depended) nodes object) r o := by
  induction hpath using Relation.TransGen.head_induction_on generalizing r with
  | single hstep => exact .single (h.edge_iff.mpr ⟨ho, hr, _, ha, b, hb, hstep⟩)
  | @head a c hstep hrest ih =>
    have hclosed := h.workspace.closed a c hstep
    rw [List.flatMap_map] at hclosed
    obtain ⟨m, hm, hc⟩ := List.mem_flatMap.mp hclosed
    exact .head (h.edge_iff.mpr ⟨hm, hr, a, ha, c, hc, hstep⟩) (ih hm hc)

/-- Chains of releases are chains of crates: a chain through the release of several crates starts there. -/
theorem Known.transGen_depends {r o : Ref}
    (hpath : Relation.TransGen (Propagation.Edge (dependents iterate byCrate depended) nodes object) r o) :
    ∃ a ∈ (object r).names, ∃ b ∈ (object o).names, Relation.TransGen (Depends (nodes.map object)) a b := by
  induction hpath using Relation.TransGen.head_induction_on with
  | single hedge =>
    obtain ⟨_, _, a, ha, b, hb, hstep⟩ := h.edge_iff.mp hedge
    exact ⟨a, ha, b, hb, .single hstep⟩
  | @head r m hedge hrest ih =>
    obtain ⟨a', ha', b, hb, hchain⟩ := ih
    cases hm : (object m).singleCrate with
    | true =>
      obtain ⟨_, _, a, ha, c, hc, hstep⟩ := h.edge_iff.mp hedge
      obtain ⟨crate, hcrate, rfl⟩ := List.mem_map.mp ha'
      rw [eq_of_singleCrate hm hc hcrate] at hchain
      exact ⟨a, ha, b, hb, .head hstep hchain⟩
    | false =>
      rw [h.eq_of_edge hm hedge]
      exact ⟨a', ha', b, hb, hchain⟩

theorem Known.reaches_iff {r : Ref} (hr : r ∈ nodes) :
    Propagation.Reaches ReleaseInfo.shouldRelease (dependents iterate byCrate depended) nodes object r ↔
      DependsOnReleased (nodes.map object) (object r) := by
  constructor
  · rintro ⟨origin, horigin, hpath⟩
    obtain ⟨last, _, hlast⟩ := Relation.TransGen.tail'_iff.mp hpath
    exact ⟨object origin, List.mem_map_of_mem hlast.1, horigin, h.transGen_depends hpath⟩
  · rintro ⟨_, horigin, hflag, a, ha, b, hb, hchain⟩
    obtain ⟨origin, hmem, rfl⟩ := List.mem_map.mp horigin
    exact ⟨origin, hflag, h.transGen_edge hchain hr ha hmem hb⟩

theorem Known.not_reaches {r : Ref} (hr : r ∉ nodes) :
    ¬ Propagation.Reaches ReleaseInfo.shouldRelease (dependents iterate byCrate depended) nodes object r := by
  rintro ⟨origin, _, hpath⟩
  obtain ⟨next, hnext, _⟩ := Relation.TransGen.head'_iff.mp hpath
  exact hr (h.edge_iff.mp hnext).2.1

theorem Known.ordered
    (hbefore : ∀ pre n post, nodes = pre ++ n :: post → (object n).singleCrate = true →
      ∀ crate ∈ (object n).crates, ∀ b ∈ crate.workspaceDependencies, ∃ other ∈ pre, b ∈ (object other).names) :
    Propagation.Ordered (dependents iterate byCrate depended) object (fun n => (object n).singleCrate = false) nodes
    where
  own r s hs hedge := by
    have heq := h.eq_of_edge hs hedge
    obtain ⟨hsmem, hrmem, a, ha, _⟩ := h.edge_iff.mp hedge
    have ha' : a ∈ (object s).names := by rwa [← heq]
    exact eq_of_mem_names h.workspace.names hrmem hsmem ha ha'
  before pre n post hnodes hsingle s hedge := by
    obtain ⟨hsmem, hnmem, a, ha, b, hb, release, hrelease, crate, hcrate, rfl, hdep⟩ := h.edge_iff.mp hedge
    obtain rfl : release = object n := eq_of_mem_of_nodup_flatMap h.workspace.names hrelease
      (List.mem_map_of_mem hnmem) (List.mem_map_of_mem hcrate) ha
    obtain ⟨other, hother, hbother⟩ :=
      hbefore pre n post hnodes (Bool.not_eq_false _ ▸ hsingle) crate hcrate b hdep
    have hmem : other ∈ nodes := hnodes ▸ List.mem_append_left _ hother
    rwa [eq_of_mem_names h.workspace.names hsmem hmem hb hbother]

end Reach

/-! ### The whole -/

theorem depends_congr {releases releases' : List ReleaseInfo}
    (h : ∀ release, release ∈ releases ↔ release ∈ releases') : Depends releases = Depends releases' := by
  funext a b
  simp only [Depends, h]

theorem dependsOnReleased_congr {releases releases' : List ReleaseInfo}
    (h : ∀ release, release ∈ releases ↔ release ∈ releases') :
    DependsOnReleased releases = DependsOnReleased releases' := by
  funext release
  simp only [DependsOnReleased, h, depends_congr h]

theorem Workspace.perm {releases releases' : List ReleaseInfo} (h : Workspace releases)
    (hperm : releases'.Perm releases) : Workspace releases' := by
  have hmem : ∀ release, release ∈ releases' ↔ release ∈ releases := fun release => hperm.mem_iff
  have hdepends := depends_congr hmem
  refine ⟨fun release hr => h.nonempty release ((hmem release).mp hr),
    ((hperm.flatMap_right _).nodup_iff).mpr h.names, fun a b hstep => ?_, ?_, ?_, ?_⟩
  · rw [hdepends] at hstep
    exact (hperm.flatMap_right _).mem_iff.mpr (h.closed a b hstep)
  · rw [hdepends]
    exact h.acyclic
  · simpa only [hmem] using h.one
  · simpa only [hmem] using h.below

section Result
variable {semver : Semver} (hnext : ∀ v, v.build = none → v < semver.nextVersion v "patch")
  {iterate : String → Finset CrateInfo → List CrateInfo}
  (hiterate : ∀ name crates crate, crate ∈ iterate name crates ↔ crate ∈ crates)
  {heap : Heap} {sorted : List Ref} (h : Workspace (sorted.map heap.object))
  (hvalid : ∀ ref ∈ sorted, ref < heap.next)

include hiterate h hvalid in
theorem known_copies : Known (copyReleases heap sorted).1.object (copyReleases heap sorted).2
    (releasesByCrate (copyReleases heap sorted).1 (copyReleases heap sorted).2) (dependedOnBy heap sorted) iterate := by
  have hcopied := copied hvalid
  refine ⟨hcopied.values ▸ h, fun name ref => lookup_releasesByCrate ?_, fun name crate => ?_, hiterate⟩
  · rw [hcopied.values]
    exact h.names
  · rw [mem_dependedOnBy, hcopied.values]

theorem Known.allReleased {object : Ref → ReleaseInfo} {nodes : List Ref} {byCrate : HashMap String Ref}
    {depended : String → Finset CrateInfo} (h : Known object nodes byCrate depended iterate) (name : String) :
    AllReleased byCrate (iterate name (depended name)) := by
  intro crate hcrate
  obtain ⟨⟨release, hrelease, hmem⟩, _⟩ := (h.depended name crate).mp ((h.iterate _ _ _).mp hcrate)
  obtain ⟨ref, href, rfl⟩ := List.mem_map.mp hrelease
  exact ⟨ref, (h.lookup _ _).mpr ⟨href, List.mem_map_of_mem hmem⟩⟩

/-- A property of the places in a list is one of the places with the same values. -/
theorem before_copies {object object' : Ref → ReleaseInfo} {nodes nodes' : List Ref}
    (hvalues : nodes'.map object' = nodes.map object)
    (hbefore : ∀ pre n post, nodes = pre ++ n :: post → (object n).singleCrate = true →
      ∀ crate ∈ (object n).crates, ∀ b ∈ crate.workspaceDependencies, ∃ other ∈ pre, b ∈ (object other).names)
    (pre : List Ref) (n : Ref) (post : List Ref) (hnodes : nodes' = pre ++ n :: post)
    (hsingle : (object' n).singleCrate = true) (crate : CrateInfo) (hcrate : crate ∈ (object' n).crates) (b : String)
    (hb : b ∈ crate.workspaceDependencies) : ∃ other ∈ pre, b ∈ (object' other).names := by
  rw [hnodes, List.map_append, List.map_cons] at hvalues
  obtain ⟨pre', rest, hsplit, hpre, hrest⟩ := List.map_eq_append_iff.mp hvalues.symm
  obtain ⟨n', post', rfl, hn, _⟩ := List.map_eq_cons_iff.mp hrest
  rw [← hn] at hsingle hcrate
  obtain ⟨other, hother, hname⟩ := hbefore pre' n' post' hsplit hsingle crate hcrate b hb
  have hvalue : object other ∈ pre.map object' := hpre ▸ List.mem_map_of_mem hother
  obtain ⟨other', hother', heq⟩ := List.mem_map.mp hvalue
  exact ⟨other', hother', heq ▸ hname⟩

include hnext in
/-- A release after the loop, in which it was required `k` times. -/
theorem made_iterate {releases : List ReleaseInfo} {release : ReleaseInfo} {k : ℕ}
    (hk : 0 < k ↔ DependsOnReleased releases release) (hselected : Selected releases release) :
    Made semver releases release ((requireRelease semver)^[k] release) := by
  cases k with
  | zero =>
    have hdep : ¬ DependsOnReleased releases release := fun h => absurd (hk.mpr h) (Nat.lt_irrefl 0)
    have hflag : release.shouldRelease = true := hselected.resolve_right hdep
    refine ⟨?_, fun _ => rfl, fun h => absurd h hdep⟩
    rw [Function.iterate_zero_apply, ← hflag]
  | succ k =>
    have hdep : DependsOnReleased releases release := hk.mp k.succ_pos
    obtain ⟨version, hiterate, hkept, hraised⟩ := requireRelease_iterate hnext release k
    rw [hiterate]
    refine ⟨rfl, fun h => hkept ?_, fun _ hchanged hbuild => hraised hchanged hbuild⟩
    exact Bool.eq_true_of_not_eq_false fun hchanged => h ⟨hdep, hchanged⟩

open Classical in
include hnext hiterate h hvalid in
theorem processDependencies_spec
    (hbefore : ∀ pre n post, sorted = pre ++ n :: post → (heap.object n).singleCrate = true →
      ∀ crate ∈ (heap.object n).crates, ∀ b ∈ crate.workspaceDependencies,
        ∃ other ∈ pre, b ∈ (heap.object other).names) :
    ∃ heap' result, processDependencies semver iterate heap sorted = .ok (heap', result) ∧
      List.Forall₂ (Made semver (sorted.map heap.object))
        ((sorted.map heap.object).filter (Selected (sorted.map heap.object) ·)) (result.map heap'.object) ∧
      ∀ ref < heap.next, heap'.object ref = heap.object ref := by
  have hcopied := copied hvalid
  have hknown := known_copies hiterate h hvalid
  rw [processDependencies]
  generalize copyReleases heap sorted = state at hcopied hknown ⊢
  obtain ⟨heap₁, copies⟩ := state
  dsimp only at hcopied hknown ⊢
  rw [processReleases_eq hknown.allReleased]
  -- how often the loop requires each release
  have hfinal := Propagation.foldl_visit
    (stable semver iterate (releasesByCrate heap₁ copies) (dependedOnBy heap sorted))
    (hknown.ordered (before_copies hcopied.values hbefore))
  refine ⟨_, _, rfl, ?_, fun ref href => ?_⟩
  · dsimp only
    rw [← hcopied.values, List.filter_map, List.forall₂_map_left_iff, List.forall₂_map_right_iff]
    have hselected : ∀ copy ∈ copies, (copies.foldl (visitRelease semver iterate
          (releasesByCrate heap₁ copies) (dependedOnBy heap sorted)) heap₁.object copy).shouldRelease =
        decide (Selected (copies.map heap₁.object) (heap₁.object copy)) := by
      intro copy hcopy
      obtain ⟨k, hk, hreaches⟩ := hfinal copy
      rw [visitRelease, hk, Bool.eq_iff_iff, decide_eq_true_iff, Selected,
        (stable semver iterate (releasesByCrate heap₁ copies) (dependedOnBy heap sorted)).flagged_iterate, hreaches,
        hknown.reaches_iff hcopy, or_comm]
    rw [List.filter_congr hselected, Function.comp_def, List.forall₂_same]
    intro copy hcopy
    obtain ⟨hmem, hsel⟩ := List.mem_filter.mp hcopy
    obtain ⟨k, hk, hreaches⟩ := hfinal copy
    rw [visitRelease, hk]
    exact made_iterate hnext (hreaches.trans (hknown.reaches_iff hmem)) (of_decide_eq_true hsel)
  · have hnot : ref ∉ copies := fun hmem => absurd (hcopied.new ref hmem).1 (Nat.not_le.mpr href)
    obtain ⟨k, hk, hreaches⟩ := hfinal ref
    have hzero : k = 0 := Nat.eq_zero_of_not_pos fun hpos => hknown.not_reaches hnot (hreaches.mp hpos)
    rw [hzero] at hk
    exact hk.trans (hcopied.originals ref href)

end Result

theorem Made.congr {semver : Semver} {releases releases' : List ReleaseInfo}
    (h : ∀ release, release ∈ releases ↔ release ∈ releases') : Made semver releases = Made semver releases' := by
  funext release made
  have hdepends := dependsOnReleased_congr h
  refine propext ⟨fun ⟨hsame, hkept, hraised⟩ => ⟨hsame, ?_, ?_⟩, fun ⟨hsame, hkept, hraised⟩ => ⟨hsame, ?_, ?_⟩⟩
  · rwa [← hdepends]
  · rwa [← hdepends]
  · rwa [hdepends]
  · rwa [hdepends]

/-- Selected are exactly the releases that are released anyway and those that depend on one of them, and the objects
that were there before keep their values. -/
theorem process_dependencies_closure (semver : Semver)
    (hnext : ∀ v, v.build = none → v < semver.nextVersion v "patch")
    (iterate : String → Finset CrateInfo → List CrateInfo)
    (hiterate : ∀ name crates crate, crate ∈ iterate name crates ↔ crate ∈ crates)
    (heap : Heap) (releases : List Ref) (hvalid : ∀ ref ∈ releases, ref < heap.next)
    (h : Workspace (releases.map heap.object)) (staticOrder : Graph → Except PyError (List String))
    (hstatic : (∀ a, ¬ Relation.TransGen (Depends (releases.map heap.object)) a a) →
      ∃ order, staticOrder (dependencyGraph heap releases) = .ok order ∧
        IsStaticOrder (dependencyGraph heap releases) order) :
    ∃ sorted heap' result, sortReleasesByDeps staticOrder heap releases = .ok sorted ∧
      processDependencies semver iterate heap sorted = .ok (heap', result) ∧
      (∃ selected, selected.Nodup ∧
        (∀ ref, ref ∈ selected ↔ ref ∈ releases ∧ Selected (releases.map heap.object) (heap.object ref)) ∧
        List.Forall₂ (fun ref copy => Made semver (releases.map heap.object) (heap.object ref) (heap'.object copy))
          selected result) ∧
      ∀ ref < heap.next, heap'.object ref = heap.object ref := by
  classical
  obtain ⟨order, hok, horder⟩ := hstatic h.acyclic
  obtain ⟨sorted, hsort, hperm, hsorted⟩ := sortReleasesByDeps_spec h hok horder
  have hmap : (sorted.map heap.object).Perm (releases.map heap.object) := hperm.map _
  obtain ⟨heap', result, hprocess, hmade, hkept⟩ := processDependencies_spec hnext hiterate (h.perm hmap)
    (fun ref href => hvalid ref (hperm.mem_iff.mp href)) hsorted.before
  refine ⟨sorted, heap', result, hsort, hprocess, ?_, hkept⟩
  have hmem : ∀ release, release ∈ sorted.map heap.object ↔ release ∈ releases.map heap.object :=
    fun release => hmap.mem_iff
  have hselected : Selected (sorted.map heap.object) = Selected (releases.map heap.object) := by
    funext release
    rw [Selected, Selected, dependsOnReleased_congr hmem]
  rw [Made.congr hmem, hselected, List.filter_map, List.forall₂_map_left_iff, List.forall₂_map_right_iff] at hmade
  refine ⟨_, hsorted.nodup.filter _, fun ref => ?_, hmade⟩
  rw [List.mem_filter, hperm.mem_iff, Function.comp_apply, decide_eq_true_iff]

/-! ### Two workspaces -/

/-- A workspace whose crates depend on crates of a lower rank. -/
theorem Workspace.of_rank {releases : List ReleaseInfo} (rank : String → ℕ)
    (hnonempty : ∀ release ∈ releases, release.crates ≠ []) (hnames : (releases.flatMap ReleaseInfo.names).Nodup)
    (hrank : ∀ release ∈ releases, ∀ crate ∈ release.crates, ∀ b ∈ crate.workspaceDependencies,
      b ∈ releases.flatMap ReleaseInfo.names ∧ rank b < rank crate.name)
    (hone : ∀ release ∈ releases, ∀ other ∈ releases,
      release.singleCrate = false → other.singleCrate = false → release = other)
    (hbelow : ∀ release ∈ releases, release.singleCrate = true → ∀ crate ∈ release.crates,
      ∀ other ∈ releases, ∀ b ∈ other.names, b ∈ crate.workspaceDependencies → other.singleCrate = true) :
    Workspace releases where
  nonempty := hnonempty
  names := hnames
  closed := by
    rintro _ b ⟨release, hrelease, crate, hcrate, rfl, hb⟩
    exact (hrank release hrelease crate hcrate b hb).1
  acyclic a hcycle := by
    have hlt : ∀ {b c}, Relation.TransGen (Depends releases) b c → rank c < rank b := by
      intro b c hpath
      induction hpath with
      | single hstep =>
        obtain ⟨release, hrelease, crate, hcrate, rfl, hb⟩ := hstep
        exact (hrank release hrelease crate hcrate _ hb).2
      | tail _ hstep ih =>
        obtain ⟨release, hrelease, crate, hcrate, rfl, hb⟩ := hstep
        exact Nat.lt_trans (hrank release hrelease crate hcrate _ hb).2 ih
    exact Nat.lt_irrefl _ (hlt hcycle)
  one := hone
  below := hbelow

theorem IsStaticOrder.of_rank {graph : Graph} {order : List String} (hnodup : order.Nodup)
    (hnodes : ∀ name ∈ order, ∃ entry ∈ graph, name = entry.1 ∨ name ∈ entry.2)
    (hrank : ∀ entry ∈ graph, entry.1 ∈ order ∧
      ∀ dependency ∈ entry.2, dependency ∈ order ∧ order.idxOf dependency < order.idxOf entry.1) :
    IsStaticOrder graph order where
  nodup := hnodup
  mem name := by
    refine ⟨hnodes name, ?_⟩
    rintro ⟨entry, hentry, rfl | hdependency⟩
    · exact (hrank entry hentry).1
    · exact ((hrank entry hentry).2 name hdependency).1
  before pre name post horder entry hentry hname dependency hdependency := by
    subst horder hname
    have hlt := ((hrank entry hentry).2 dependency hdependency).2
    have hnot : entry.1 ∉ pre := fun hmem => (List.nodup_append.mp hnodup).2.2 _ hmem _ List.mem_cons_self rfl
    rw [List.idxOf_append_of_notMem hnot, List.idxOf_cons_self] at hlt
    by_contra hpre
    rw [List.idxOf_append_of_notMem hpre] at hlt
    omega

/-- A release of crates with the given dependencies, whose version was `prev`. -/
def simpleRelease (crates : List (String × Finset String)) (prev curr : Version) (shouldRelease : Bool) :
    ReleaseInfo where
  crates := crates.map fun (name, dependencies) =>
    ⟨name, prev, .ofString name, crates.length = 1, dependencies, .ofString "Cargo.lock"⟩
  prevVersion := prev
  currVersion := curr
  commits := []
  changelog := ""
  shouldRelease := shouldRelease
  hasFeatureCommit := false
  hasBreakingCommit := false
  isBreakingSemverChecks := false

def Heap.ofList (releases : List ReleaseInfo) : Heap :=
  ⟨fun ref => releases.getD ref (simpleRelease [] ⟨0, 0, 0, none, none⟩ ⟨0, 0, 0, none, none⟩ false), releases.length⟩

/-- A library is released, and with it a module that depends on it and the workspace that depends on the module. -/
theorem process_dependencies_closure_of_three :
    let library := simpleRelease [("lib", ∅)] ⟨1, 0, 0, none, none⟩ ⟨1, 1, 0, none, none⟩ true
    let mod := simpleRelease [("mod", {"lib"})] ⟨1, 0, 0, none, none⟩ ⟨1, 0, 0, none, none⟩ false
    let apps := simpleRelease [("app", {"mod"}), ("worker", {"app"})] ⟨2, 0, 0, none, none⟩ ⟨2, 0, 0, none, none⟩ false
    let heap := Heap.ofList [apps, mod, library]
    ∃ sorted heap' result,
      sortReleasesByDeps (fun _ => .ok ["lib", "mod", "app", "worker"]) heap [0, 1, 2] = .ok sorted ∧
      processDependencies .python (fun _ crates => crates.toList) heap sorted = .ok (heap', result) ∧
      (∃ selected, selected.Nodup ∧
        (∀ ref, ref ∈ selected ↔ ref ∈ [0, 1, 2] ∧ Selected [apps, mod, library] (heap.object ref)) ∧
        List.Forall₂ (fun ref copy => Made .python [apps, mod, library] (heap.object ref) (heap'.object copy))
          selected result) ∧
      ∀ ref < heap.next, heap'.object ref = heap.object ref := by
  intro library mod apps heap
  have hworkspace : Workspace [apps, mod, library] := by
    refine .of_rank (fun name => ["lib", "mod", "app", "worker"].idxOf name) ?_ ?_ ?_ ?_ ?_
    · decide
    · decide
    · decide
    · simp [apps, mod, library, simpleRelease, ReleaseInfo.singleCrate]
    · decide
  refine process_dependencies_closure .python Version.lt_nextVersion_python _ (fun _ _ _ => Finset.mem_toList) heap
    [0, 1, 2] (by decide) hworkspace _ fun _ => ⟨_, rfl, ?_⟩
  exact .of_rank (by decide) (by decide) (by decide)

/-- A module whose version has a build part depends on two libraries that are released. The first one takes the build
part away, which is the next patch version but an equal one, and the second one raises it once more. A release without
crates is lost in the sorting. -/
theorem build_part_is_raised_twice :
    let left := simpleRelease [("left", ∅)] ⟨1, 0, 0, none, none⟩ ⟨1, 1, 0, none, none⟩ true
    let right := simpleRelease [("right", ∅)] ⟨1, 0, 0, none, none⟩ ⟨1, 1, 0, none, none⟩ true
    let mod := simpleRelease [("mod", {"left", "right"})] ⟨1, 0, 0, none, some "x"⟩ ⟨1, 0, 0, none, some "x"⟩ false
    let all := [left, right, mod].flatMap ReleaseInfo.crates
    let heap := Heap.ofList [left, right, mod]
    let order := ["left", "right", "mod"]
    (Workspace [left, right, mod] ∧ IsStaticOrder (dependencyGraph heap [0, 1, 2]) order) ∧
    sortReleasesByDeps (fun _ => .ok order) heap [0, 1, 2] = .ok [0, 1, 2] ∧
    ((processDependencies .python (fun _ crates => all.filter (· ∈ crates)) heap [0, 1, 2]).map fun (heap', result) =>
        result.map fun ref => (heap'.object ref).currVersion) =
      .ok [⟨1, 1, 0, none, none⟩, ⟨1, 1, 0, none, none⟩, ⟨1, 0, 1, none, none⟩] ∧
    (mod.changed = false ∧ Semver.python.nextVersion mod.currVersion "patch" = ⟨1, 0, 0, none, none⟩) ∧
    sortReleasesByDeps (fun _ => .ok []) (.ofList [simpleRelease [] ⟨1, 0, 0, none, none⟩ ⟨1, 1, 0, none, none⟩ true])
      [0] = .ok [] := by
  intro left right mod all heap order
  have hworkspace : Workspace [left, right, mod] := by
    refine .of_rank (fun name => order.idxOf name) ?_ ?_ ?_ ?_ ?_
    · decide
    · decide
    · decide
    · simp [left, right, mod, simpleRelease, ReleaseInfo.singleCrate]
    · decide
  exact ⟨⟨hworkspace, .of_rank (by decide) (by decide) (by decide)⟩, by decide, by decide +kernel, by decide, by decide⟩

end Tulpje.Release
