import Tulpje.Lib.Radix

/-!
# Versions of the release tool

`release_tulpje/version.py`. The operations of python-semver are a parameter (`Semver`), and `Semver.Documented` is
what it documents of them. Versions are ordered by the rules of semver: numbers first, then a version with a
prerelease part before the one without, then the identifiers of the parts one after the other.
-/

namespace Tulpje.Release

structure Version where
  major : Nat
  minor : Nat
  patch : Nat
  prerelease : Option String
  build : Option String
  deriving DecidableEq

/-! ### The order of versions -/

/-- What stands between two dots of a prerelease part. -/
inductive Identifier
  | numeric (n : Nat)
  | alphanumeric (text : List Char)

namespace Identifier

def ofChars (text : List Char) : Identifier :=
  if text ≠ [] ∧ text.all Char.isDigit then .numeric (Nat.ofDigitChars 10 text 0) else .alphanumeric text

/-- Numbers come before words, and each kind in its own order. -/
def compare : Identifier → Identifier → Ordering
  | .numeric m, .numeric n => Ord.compare m n
  | .numeric _, .alphanumeric _ => .lt
  | .alphanumeric _, .numeric _ => .gt
  | .alphanumeric a, .alphanumeric b => a.compareLex Ord.compare b

end Identifier

namespace Version

def identifiers (prerelease : String) : List Identifier :=
  (prerelease.toList.splitOn '.').map Identifier.ofChars

def comparePrerelease : Option String → Option String → Ordering
  | none, none => .eq
  | none, some _ => .gt
  | some _, none => .lt
  | some a, some b => (identifiers a).compareLex Identifier.compare (identifiers b)

/-- `Version.compare`; the build part does not count. -/
def compare (a b : Version) : Ordering :=
  (Ord.compare a.major b.major).then <| (Ord.compare a.minor b.minor).then <|
    (Ord.compare a.patch b.patch).then <| comparePrerelease a.prerelease b.prerelease

instance : LT Version where
  lt a b := compare a b = .lt

instance (a b : Version) : Decidable (a < b) := inferInstanceAs (Decidable (compare a b = .lt))

/-- `Version.__eq__`. -/
instance : BEq Version where
  beq a b := compare a b == .eq

/-- `Version.__str__`. -/
instance : ToString Version where
  toString v := toString v.major ++ "." ++ toString v.minor ++ "." ++ toString v.patch ++
    (v.prerelease.elim "" ("-" ++ ·)) ++ (v.build.elim "" ("+" ++ ·))

end Version

/-! ### python-semver -/

/-- The operations of python-semver that the tool calls; `parse` is `none` where `Version.parse` raises. -/
structure Semver where
  parse : String → Option Version
  bumpMajor : Version → Version
  bumpMinor : Version → Version
  nextVersion : Version → String → Version
  bumpPrerelease : Version → String → Version

/-- A prerelease part with a label and a number. -/
def numbered (label : String) (n : Nat) : String := label ++ "." ++ toString n

theorem toList_numbered (label : String) (n : Nat) :
    (numbered label n).toList = label.toList ++ '.' :: Nat.toDigits 10 n := by
  simp [numbered, String.toList_append, Nat.toList_repr]

structure Semver.Documented (semver : Semver) : Prop where
  bump_major : ∀ v, semver.bumpMajor v = ⟨v.major + 1, 0, 0, none, none⟩
  bump_minor : ∀ v, semver.bumpMinor v = ⟨v.major, v.minor + 1, 0, none, none⟩
  next_patch : ∀ v, v.prerelease = none → v.build = none →
    semver.nextVersion v "patch" = ⟨v.major, v.minor, v.patch + 1, none, none⟩
  next_patch_of_prerelease : ∀ v label n, v.prerelease = some (numbered label n) →
    semver.nextVersion v "patch" = { v with prerelease := none, build := none }
  bump_prerelease : ∀ v label n token, v.prerelease = some (numbered label n) →
    semver.bumpPrerelease v token = { v with prerelease := some (numbered label (n + 1)), build := none }
  bump_prerelease_of_none : ∀ v token, v.prerelease = none → token ≠ "" →
    semver.bumpPrerelease v token = { v with prerelease := some (numbered token 1), build := none }

/-- The last number of a text, one higher. -/
def incrementString (text : String) : String :=
  let reversed := text.toList.reverse
  String.ofList (reversed.dropWhile Char.isDigit).reverse ++
    toString (Nat.ofDigitChars 10 (reversed.takeWhile Char.isDigit).reverse 0 + 1)

/-- Operations that meet the documentation; versions without a prerelease part are parsed. -/
def Semver.python : Semver where
  parse text := match (text.toList.splitOn '.').map (Lib.readDigits 10) with
    | [some major, some minor, some patch] => some ⟨major, minor, patch, none, none⟩
    | _ => none
  bumpMajor v := ⟨v.major + 1, 0, 0, none, none⟩
  bumpMinor v := ⟨v.major, v.minor + 1, 0, none, none⟩
  nextVersion v part :=
    if part = "patch" then
      if v.prerelease.isSome || v.build.isSome then { v with prerelease := none, build := none }
      else ⟨v.major, v.minor, v.patch + 1, none, none⟩
    else v
  bumpPrerelease v token :=
    { v with prerelease := some (incrementString (v.prerelease.getD (token ++ ".0"))), build := none }

theorem incrementString_numbered (label : String) (n : Nat) :
    incrementString (numbered label n) = numbered label (n + 1) := by
  have hdigits : ∀ c ∈ (Nat.toDigits 10 n).reverse, c.isDigit = true := fun c hc =>
    Nat.isDigit_of_mem_toDigits (by decide) (by decide) (List.mem_reverse.mp hc)
  have hreverse : (numbered label n).toList.reverse =
      (Nat.toDigits 10 n).reverse ++ '.' :: label.toList.reverse := by
    rw [toList_numbered, List.reverse_append, List.reverse_cons, List.append_assoc, List.singleton_append]
  have hdot : ¬ ('.' : Char).isDigit = true := by decide
  rw [incrementString, hreverse, List.takeWhile_append_of_pos hdigits, List.dropWhile_append_of_pos hdigits,
    List.takeWhile_cons_of_neg hdot, List.dropWhile_cons_of_neg hdot, List.append_nil, List.reverse_reverse,
    Nat.ofDigitChars_toDigits (by decide) (by decide), numbered]
  simp [String.ofList_append, String.append_assoc]

theorem Semver.documented_python : Semver.python.Documented where
  bump_major _ := rfl
  bump_minor _ := rfl
  next_patch v hprerelease hbuild := by
    simp [python, hprerelease, hbuild]
  next_patch_of_prerelease v label n hprerelease := by
    simp [python, hprerelease]
  bump_prerelease v label n token hprerelease := by
    simp [python, hprerelease, incrementString_numbered]
  bump_prerelease_of_none v token hprerelease _ := by
    have hzero : token ++ ".0" = numbered token 0 := by
      rw [numbered, String.append_assoc]
      rfl
    simp [python, hprerelease, hzero, incrementString_numbered]

/-! ### `version.py` -/

/-- `text.rsplit(".", 1)[0]`. -/
def beforeLastDot (text : String) : String :=
  if '.' ∈ text.toList then
    String.ofList ((text.toList.reverse.dropWhile (· ≠ '.')).drop 1).reverse
  else text

variable (semver : Semver)

def versionBump (semVer : Version) (feature breaking : Bool) (prerelease : Option String) : Version :=
  let semVer :=
    if semVer.major = 0 then
      if breaking then semver.bumpMinor semVer
      else if prerelease.isNone || (semVer.prerelease.isNone && prerelease.isSome) then
        semver.nextVersion semVer "patch"
      else semVer
    else
      if breaking then semver.bumpMajor semVer
      else if feature then semver.bumpMinor semVer
      else if prerelease.isNone then semver.nextVersion semVer "patch"
      else semVer
  match prerelease with
  | none => semVer
  | some prerelease =>
    -- a different token takes the place of the old one
    let semVer := match semVer.prerelease with
      | some old => if beforeLastDot old ≠ prerelease then { semVer with prerelease := none } else semVer
      | none => semVer
    semver.bumpPrerelease semVer prerelease

/-- `max(versions)`: the first one that no other exceeds. -/
def latestVersion : List Version → Option Version
  | [] => none
  | v :: versions => some (versions.foldl (fun latest v => if latest < v then v else latest) v)

def prefixedVersion (tagPrefix : String) (version : Version) : String :=
  if tagPrefix = "" then "v" ++ toString version else tagPrefix ++ "-v" ++ toString version

def removePrefix (text start : String) : String :=
  if start.toList.isPrefixOf text.toList then String.ofList (text.toList.drop start.length) else text

def parseSemverFromTag (tag tagPrefix : String) : Option Version :=
  semver.parse (removePrefix tag (tagPrefix ++ "v"))

/-! ### Facts on the order -/

namespace Version

theorem lt_of_major {a b : Version} (h : a.major < b.major) : a < b := by
  change (Ord.compare a.major b.major).then _ = .lt
  rw [Nat.compare_eq_lt.mpr h]
  rfl

theorem lt_of_minor {a b : Version} (hmajor : a.major = b.major) (h : a.minor < b.minor) : a < b := by
  change (Ord.compare a.major b.major).then ((Ord.compare a.minor b.minor).then _) = .lt
  rw [Nat.compare_eq_eq.mpr hmajor, Nat.compare_eq_lt.mpr h]
  rfl

theorem compare_of_minor {a b : Version} (hmajor : a.major = b.major) (hminor : a.minor = b.minor) :
    compare a b = (Ord.compare a.patch b.patch).then (comparePrerelease a.prerelease b.prerelease) := by
  rw [compare, Nat.compare_eq_eq.mpr hmajor, Nat.compare_eq_eq.mpr hminor]
  rfl

theorem lt_of_patch {a b : Version} (hmajor : a.major = b.major) (hminor : a.minor = b.minor)
    (h : a.patch < b.patch) : a < b := by
  change compare a b = .lt
  rw [compare_of_minor hmajor hminor, Nat.compare_eq_lt.mpr h]
  rfl

theorem lt_withPrerelease (v : Version) (prerelease build : Option String) :
    v < { v with prerelease, build } ↔ comparePrerelease v.prerelease prerelease = .lt := by
  change compare v { v with prerelease, build } = .lt ↔ _
  have hcompare := compare_of_minor (a := v) (b := { v with prerelease, build }) rfl rfl
  rw [hcompare, Nat.compare_eq_eq.mpr rfl, Ordering.eq_then]

/-- The next patch version comes after a version without a build part. -/
theorem lt_nextVersion_python (v : Version) (hbuild : v.build = none) : v < Semver.python.nextVersion v "patch" := by
  cases hprerelease : v.prerelease with
  | none =>
    have hnext : Semver.python.nextVersion v "patch" = ⟨v.major, v.minor, v.patch + 1, none, none⟩ := by
      simp [Semver.python, hprerelease, hbuild]
    rw [hnext]
    exact lt_of_patch rfl rfl (Nat.lt_succ_self _)
  | some text =>
    have hnext : Semver.python.nextVersion v "patch" = { v with prerelease := none, build := none } := by
      simp [Semver.python, hprerelease]
    rw [hnext, lt_withPrerelease, hprerelease]
    rfl

end Version

instance : Std.LawfulEqCmp Identifier.compare where
  compare_self {identifier} := by
    cases identifier with
    | numeric n => exact Nat.compare_eq_eq.mpr rfl
    | alphanumeric text =>
      change text.compareLex Ord.compare text = .eq
      exact Std.ReflCmp.compare_self
  eq_of_compare {a b} h := by
    cases a with
    | numeric m =>
      cases b with
      | numeric n => exact congrArg Identifier.numeric (Nat.compare_eq_eq.mp h)
      | alphanumeric text => cases h
    | alphanumeric text =>
      cases b with
      | numeric n => cases h
      | alphanumeric text' => exact congrArg Identifier.alphanumeric (Std.LawfulEqCmp.eq_of_compare h)

theorem compareLex_concat (l : List Identifier) (a b : Identifier) :
    (l ++ [a]).compareLex Identifier.compare (l ++ [b]) = Identifier.compare a b := by
  induction l with
  | nil =>
    rw [List.nil_append, List.nil_append, List.compareLex_cons_cons]
    cases Identifier.compare a b <;> rfl
  | cons c l ih =>
    have hself : Identifier.compare c c = .eq := Std.ReflCmp.compare_self
    rw [List.cons_append, List.cons_append, List.compareLex_cons_cons, hself, ih, Ordering.eq_then]

theorem identifiers_numbered (label : String) (n : Nat) :
    Version.identifiers (numbered label n) = Version.identifiers label ++ [.numeric n] := by
  have hone : (Nat.toDigits 10 n).splitOn '.' = [Nat.toDigits 10 n] := by
    refine List.splitOn_eq_singleton fun h => ?_
    exact absurd (Nat.isDigit_of_mem_toDigits (by decide) (by decide) h) (by decide)
  have hdigits : (Nat.toDigits 10 n).all Char.isDigit = true :=
    List.all_eq_true.mpr fun c hc => Nat.isDigit_of_mem_toDigits (by decide) (by decide) hc
  have hnumber : Identifier.ofChars (Nat.toDigits 10 n) = .numeric n := by
    rw [Identifier.ofChars, if_pos ⟨Nat.toDigits_ne_nil, hdigits⟩,
      Nat.ofDigitChars_toDigits (by decide) (by decide)]
  rw [Version.identifiers, toList_numbered, List.splitOn_append_cons_self, hone, List.map_append, List.map_singleton,
    hnumber, Version.identifiers]

/-- The next number of a label comes after it. -/
theorem comparePrerelease_numbered_succ (label : String) (n : Nat) :
    Version.comparePrerelease (some (numbered label n)) (some (numbered label (n + 1))) = .lt := by
  rw [Version.comparePrerelease, identifiers_numbered, identifiers_numbered, compareLex_concat]
  exact Nat.compare_eq_lt.mpr (Nat.lt_succ_self n)

/-- Versions that compare as equal compare alike with any other. -/
theorem Version.compare_congr {a b : Version} (h : Version.compare a b = .eq) (c : Version) :
    Version.compare a c = Version.compare b c := by
  simp only [Version.compare, Ordering.then_eq_eq, Nat.compare_eq_eq] at h
  obtain ⟨hmajor, hminor, hpatch, hprerelease⟩ := h
  have hcongr : comparePrerelease a.prerelease c.prerelease = comparePrerelease b.prerelease c.prerelease := by
    rcases ha : a.prerelease with _ | text
    · rcases hb : b.prerelease with _ | text'
      · rfl
      · rw [ha, hb] at hprerelease
        cases hprerelease
    · rcases hb : b.prerelease with _ | text'
      · rw [ha, hb] at hprerelease
        cases hprerelease
      · rw [ha, hb] at hprerelease
        have hidentifiers : identifiers text = identifiers text' := Std.LawfulEqCmp.eq_of_compare hprerelease
        cases c.prerelease with
        | none => rfl
        | some other => rw [comparePrerelease, comparePrerelease, hidentifiers]
  rw [Version.compare, Version.compare, hmajor, hminor, hpatch, hcongr]

/-- What comes after an equal version is another one. -/
theorem Version.bne_of_lt {a b c : Version} (h : (a == b) = true) (hlt : b < c) : (a != c) = true := by
  have hcompare : Version.compare a b = .eq := by simpa [BEq.beq] using h
  have hlt : Version.compare a c = .lt := (Version.compare_congr hcompare c).trans hlt
  have hne : (a == c) = false := by
    change (Version.compare a c == .eq) = false
    rw [hlt]
    rfl
  rw [bne, hne]
  rfl

/-! ### A version moves forward -/

/-- A version without a build part whose prerelease part, if any, has a label and a number. -/
structure Version.Labelled (v : Version) : Prop where
  build : v.build = none
  prerelease : v.prerelease = none ∨ ∃ label n, v.prerelease = some (numbered label n)

section Bump
variable {semver : Semver} (hsemver : semver.Documented) {v : Version}

include hsemver

theorem nextVersion_patch (hv : v.Labelled) :
    (semver.nextVersion v "patch").prerelease = none ∧ v < semver.nextVersion v "patch" := by
  rcases hv.prerelease with hnone | ⟨label, n, hsome⟩
  · rw [hsemver.next_patch v hnone hv.build]
    exact ⟨rfl, Version.lt_of_patch rfl rfl (Nat.lt_succ_self _)⟩
  · rw [hsemver.next_patch_of_prerelease v label n hsome]
    refine ⟨rfl, (Version.lt_withPrerelease v none none).mpr ?_⟩
    rw [hsome]
    rfl

/-- Without a label the new version has no prerelease part and comes after the old one. -/
theorem versionBump_regular (hv : v.Labelled) (feature breaking : Bool) :
    (versionBump semver v feature breaking none).prerelease = none ∧
      v < versionBump semver v feature breaking none := by
  have hminor : (semver.bumpMinor v).prerelease = none ∧ v < semver.bumpMinor v := by
    rw [hsemver.bump_minor]
    exact ⟨rfl, Version.lt_of_minor rfl (Nat.lt_succ_self _)⟩
  have hmajor : (semver.bumpMajor v).prerelease = none ∧ v < semver.bumpMajor v := by
    rw [hsemver.bump_major]
    exact ⟨rfl, Version.lt_of_major (Nat.lt_succ_self _)⟩
  have hpatch := nextVersion_patch hsemver hv
  unfold versionBump
  by_cases hzero : v.major = 0
  · cases breaking with
    | true => simpa [hzero] using hminor
    | false => simpa [hzero] using hpatch
  · cases breaking with
    | true => simpa [hzero] using hmajor
    | false =>
      cases feature with
      | true => simpa [hzero] using hminor
      | false => simpa [hzero] using hpatch

/-- The numbers that a label is put on where there was none. -/
theorem versionBump_prerelease (hbuild : v.build = none) (hnone : v.prerelease = none) {token : String}
    (htoken : token ≠ "") (feature breaking : Bool) :
    (versionBump semver v feature breaking (some token)).prerelease = some (numbered token 1) ∧
      (v < versionBump semver v feature breaking (some token) ↔
        v.major = 0 ∨ feature = true ∨ breaking = true) := by
  have hbump : ∀ w : Version, w.prerelease = none →
      semver.bumpPrerelease w token = { w with prerelease := some (numbered token 1), build := none } :=
    fun w hw => hsemver.bump_prerelease_of_none w token hw htoken
  unfold versionBump
  by_cases hzero : v.major = 0
  · cases breaking with
    | true =>
      simp only [hzero, hsemver.bump_minor, hbump, if_true, true_or, iff_true]
      exact ⟨trivial, Version.lt_of_minor hzero (Nat.lt_succ_self _)⟩
    | false =>
      simp only [hzero, hnone, hsemver.next_patch v hnone hbuild, hbump, if_true, Bool.false_eq_true, if_false,
        Option.isNone_none, Option.isSome_some, Bool.and_self, Bool.or_true, true_or, iff_true]
      exact ⟨trivial, Version.lt_of_patch hzero rfl (Nat.lt_succ_self _)⟩
  · cases breaking with
    | true =>
      simp only [hzero, hsemver.bump_major, hbump, if_true, if_false, or_true, iff_true]
      exact ⟨trivial, Version.lt_of_major (Nat.lt_succ_self _)⟩
    | false =>
      cases feature with
      | true =>
        simp only [hzero, hsemver.bump_minor, hbump, if_true, if_false, Bool.false_eq_true, true_or, or_true, iff_true]
        exact ⟨trivial, Version.lt_of_minor rfl (Nat.lt_succ_self _)⟩
      | false =>
        simp only [hzero, hnone, hbump, if_false, Bool.false_eq_true, Option.isNone_some, or_self, iff_false]
        refine ⟨trivial, fun hlt => ?_⟩
        rw [Version.lt_withPrerelease, hnone] at hlt
        cases hlt

theorem versionBump_keeps_numbers (hbuild : v.build = none) (hnone : v.prerelease = none) {token : String}
    (htoken : token ≠ "") (hmajor : v.major ≠ 0) :
    versionBump semver v false false (some token) = { v with prerelease := some (numbered token 1) } := by
  unfold versionBump
  simp only [hmajor, hnone, if_false, Bool.false_eq_true, Option.isNone_some,
    hsemver.bump_prerelease_of_none v token hnone htoken]
  rw [← hbuild]

end Bump

end Tulpje.Release
