import Tulpje.Lib.Lists

/-!
# Paths

`pathlib.PurePath` on POSIX, as far as the release tool uses it: the ancestors of a path, and `match`, which compares
a pattern with the last parts of a path (or, when the pattern is absolute, with all of them) part by part. In a part
`*` stands for any text, `?` for any character and `[seq]` for a character of a set.
-/

namespace Tulpje.Release

/-- The exceptions of the modelled code. -/
inductive PyError
  | valueError (message : String)
  | keyError (key : String)
  | cycleError
  | exception (message : String)
  deriving DecidableEq

/-- The slashes that a path starts with; three and more are the same as one. -/
inductive Root
  | none
  | slash
  | slashes
  deriving DecidableEq

namespace Root

def ofChars : List Char → Root
  | '/' :: '/' :: '/' :: _ => .slash
  | '/' :: '/' :: _ => .slashes
  | '/' :: _ => .slash
  | _ => .none

def text : Root → String
  | .none => ""
  | .slash => "/"
  | .slashes => "//"

end Root

/-- What may stand between two slashes of a path. -/
def IsPart (part : String) : Prop := part ≠ "" ∧ part ≠ "." ∧ '/' ∉ part.toList

structure PurePath where
  root : Root
  tail : List String
  valid : ∀ part ∈ tail, IsPart part
  deriving DecidableEq

namespace PurePath

/-- `PurePath(text)`. -/
def ofString (text : String) : PurePath where
  root := .ofChars text.toList
  tail := ((text.toList.splitOn '/').filter fun part => part ≠ [] ∧ part ≠ ['.']).map String.ofList
  valid := by
    intro part hpart
    obtain ⟨chars, hchars, rfl⟩ := List.mem_map.mp hpart
    obtain ⟨hsplit, hne⟩ := List.mem_filter.mp hchars
    obtain ⟨hempty, hdot⟩ := of_decide_eq_true hne
    refine ⟨fun h => hempty ?_, fun h => hdot ?_, ?_⟩
    · simpa using congrArg String.toList h
    · simpa using congrArg String.toList h
    · rw [String.toList_ofList]
      exact Lib.notMem_of_mem_splitOn hsplit

/-- `str(path)`. -/
instance : ToString PurePath where
  toString path :=
    if path.root = .none ∧ path.tail = [] then "." else path.root.text ++ "/".intercalate path.tail

def parts (path : PurePath) : List String :=
  if path.root = .none then path.tail else path.root.text :: path.tail

def take (path : PurePath) (n : Nat) : PurePath where
  root := path.root
  tail := path.tail.take n
  valid part hpart := path.valid part (List.mem_of_mem_take hpart)

/-- The nearest ancestor comes first. -/
def parents (path : PurePath) : List PurePath := (List.range path.tail.length).reverse.map path.take

/-- The file is in the directory, at any depth. -/
def LiesIn (file directory : PurePath) : Prop :=
  directory.root = file.root ∧ directory.tail <+: file.tail ∧ directory.tail ≠ file.tail

instance (file directory : PurePath) : Decidable (file.LiesIn directory) := inferInstanceAs (Decidable (_ ∧ _ ∧ _))

theorem mem_parents_iff {file directory : PurePath} : directory ∈ file.parents ↔ file.LiesIn directory := by
  unfold parents LiesIn
  simp only [List.mem_map, List.mem_reverse, List.mem_range]
  constructor
  · rintro ⟨n, hn, rfl⟩
    refine ⟨rfl, List.take_prefix n file.tail, fun heq => ?_⟩
    have hlength := congrArg List.length heq
    simp only [take, List.length_take] at hlength
    omega
  · rintro ⟨hroot, hstart, hne⟩
    have hle := hstart.length_le
    refine ⟨directory.tail.length, Nat.lt_of_le_of_ne hle fun heq => hne (hstart.eq_of_length heq), ?_⟩
    obtain ⟨root, tail, hvalid⟩ := directory
    obtain rfl : root = file.root := hroot
    have htail : file.tail.take tail.length = tail := (List.prefix_iff_eq_take.mp hstart).symm
    simp [take, htail]

end PurePath

/-! ### Patterns -/

inductive Wildcard
  | star
  | question
  | set (negated : Bool) (ranges : List (Char × Char))
  | literal (c : Char)

namespace Wildcard

/-- The text of a set up to its closing bracket, which may be the first character of the set, and what follows. -/
def splitSet (text : List Char) : Option (List Char × List Char) :=
  let (first, rest) := match text with
    | '!' :: ']' :: rest => (['!', ']'], rest)
    | '!' :: rest => (['!'], rest)
    | ']' :: rest => ([']'], rest)
    | _ => ([], text)
  match rest.span (· ≠ ']') with
  | (inner, ']' :: after) => some (first ++ inner, after)
  | _ => none

/-- A hyphen between two characters makes a range. -/
def ranges : List Char → List (Char × Char)
  | low :: '-' :: high :: rest => (low, high) :: ranges rest
  | c :: rest => (c, c) :: ranges rest
  | [] => []

def ofSet : List Char → Wildcard
  | '!' :: text => .set true (ranges text)
  | text => .set false (ranges text)

/-- `fnmatch.translate`; each step takes a character at least, so the length of the pattern is enough fuel. -/
def parse : Nat → List Char → List Wildcard
  | 0, _ => []
  | _, [] => []
  | fuel + 1, '*' :: rest => .star :: parse fuel rest
  | fuel + 1, '?' :: rest => .question :: parse fuel rest
  | fuel + 1, '[' :: rest =>
    match splitSet rest with
    | some (text, after) => ofSet text :: parse fuel after
    | none => .literal '[' :: parse fuel rest
  | fuel + 1, c :: rest => .literal c :: parse fuel rest

def matchChars : List Wildcard → List Char → Bool
  | [], text => text.isEmpty
  | .star :: pattern, text =>
    (List.range (text.length + 1)).any fun n =>
      (text.take n).all (· ≠ '/') && matchChars pattern (text.drop n)
  | .question :: pattern, c :: text => c ≠ '/' && matchChars pattern text
  | .set negated ranges :: pattern, c :: text =>
    (ranges.any (fun (low, high) => low ≤ c ∧ c ≤ high) != negated) && matchChars pattern text
  | .literal d :: pattern, c :: text => c = d && matchChars pattern text
  | _ :: _, [] => false

end Wildcard

/-- One part of a path against one of a pattern; a star that is a part of its own needs a character. -/
def matchPart (pattern part : String) : Bool :=
  if pattern = "*" then part ≠ "" && part.toList.all (· ≠ '/')
  else Wildcard.matchChars (Wildcard.parse pattern.length pattern.toList) part.toList

/-- `path.match(pattern, case_sensitive=True)`. -/
def PurePath.isMatch (path : PurePath) (pattern : String) : Except PyError Bool :=
  let pattern := PurePath.ofString pattern
  let pathParts := path.parts.reverse
  let patternParts := pattern.parts.reverse
  if patternParts = [] then .error (.valueError "empty pattern")
  else if pathParts.length < patternParts.length then .ok false
  else if pathParts.length > patternParts.length ∧ pattern.root ≠ .none then .ok false
  else .ok ((pathParts.zip patternParts).all fun (part, pattern) => matchPart pattern part)

end Tulpje.Release
