import Tulpje.Lib.Leftmost

/-!
# Regular expressions

The part of their syntax in which only a class of characters is repeated, with capture groups. `run` is the
backtracking search, which tries the longer choice first; `capturesIter` runs it from left to right and goes on
after the end of each match. It finds leftmost matches in the sense of `Matches` (`leftmost_capturesIter`).
-/

namespace Tulpje.Lib

inductive Regex (α : Type*)
  | one (p : α → Bool)
  | plus (p : α → Bool)
  | opt (r : Regex α)
  | seq (r s : Regex α)
  | group (r : Regex α)

namespace Regex

variable {α : Type*}

/-- The expression matches a text, whose groups are the captures. -/
def Matches : Regex α → List α → List (List α) → Prop
  | one p, m, captures => ∃ c, p c = true ∧ m = [c] ∧ captures = []
  | plus p, m, captures => m ≠ [] ∧ (∀ c ∈ m, p c = true) ∧ captures = []
  | opt r, m, captures => r.Matches m captures ∨ (m = [] ∧ captures = [])
  | seq r s, m, captures => ∃ m₁ captures₁ m₂ captures₂, r.Matches m₁ captures₁ ∧ s.Matches m₂ captures₂ ∧
      m = m₁ ++ m₂ ∧ captures = captures₁ ++ captures₂
  | group r, m, captures => ∃ captures', r.Matches m captures' ∧ captures = m :: captures'

section Matches

variable {r s : Regex α} {m : List α} {captures : List (List α)}

theorem matches_one_beq [BEq α] [LawfulBEq α] {c : α} :
    (one (· == c)).Matches m captures ↔ m = [c] ∧ captures = [] := by
  constructor
  · rintro ⟨d, hd, rfl, rfl⟩
    rw [eq_of_beq hd]
    exact ⟨rfl, rfl⟩
  · rintro ⟨rfl, rfl⟩
    exact ⟨c, beq_self_eq_true c, rfl, rfl⟩

theorem matches_one_seq [BEq α] [LawfulBEq α] {c : α} :
    (seq (one (· == c)) s).Matches m captures ↔ ∃ m', m = c :: m' ∧ s.Matches m' captures := by
  constructor
  · rintro ⟨m₁, captures₁, m₂, captures₂, hone, hs, rfl, rfl⟩
    obtain ⟨rfl, rfl⟩ := matches_one_beq.mp hone
    exact ⟨m₂, rfl, hs⟩
  · rintro ⟨m', rfl, hs⟩
    exact ⟨[c], [], m', captures, matches_one_beq.mpr ⟨rfl, rfl⟩, hs, rfl, rfl⟩

theorem matches_group_seq : (seq (group r) s).Matches m captures ↔
    ∃ m₁ captures₁ m₂ captures₂, r.Matches m₁ captures₁ ∧ s.Matches m₂ captures₂ ∧ m = m₁ ++ m₂ ∧
      captures = m₁ :: (captures₁ ++ captures₂) := by
  constructor
  · rintro ⟨m₁, _, m₂, captures₂, ⟨captures₁, hr, rfl⟩, hs, rfl, rfl⟩
    exact ⟨m₁, captures₁, m₂, captures₂, hr, hs, rfl, rfl⟩
  · rintro ⟨m₁, captures₁, m₂, captures₂, hr, hs, rfl, rfl⟩
    exact ⟨m₁, m₁ :: captures₁, m₂, captures₂, ⟨captures₁, hr, rfl⟩, hs, rfl, rfl⟩

end Matches

/-! ### Matching at the start of a text -/

structure Match (α : Type*) where
  matched : List α
  rest : List α
  captures : List (List α)

def runPlus (p : α → Bool) : List α → List (Match α)
  | [] => []
  | c :: text =>
    if p c then
      (runPlus p text).map (fun found => { found with matched := c :: found.matched }) ++ [⟨[c], text, []⟩]
    else []

/-- All matches at the start, the preferred ones first. -/
def run : Regex α → List α → List (Match α)
  | one _, [] => []
  | one p, c :: text => if p c then [⟨[c], text, []⟩] else []
  | plus p, text => runPlus p text
  | opt r, text => r.run text ++ [⟨[], text, []⟩]
  | seq r s, text => (r.run text).flatMap fun first => (s.run first.rest).map fun second =>
      ⟨first.matched ++ second.matched, second.rest, first.captures ++ second.captures⟩
  | group r, text => (r.run text).map fun found => { found with captures := found.matched :: found.captures }

theorem mem_runPlus_iff {p : α → Bool} {text : List α} {found : Match α} :
    found ∈ runPlus p text ↔ text = found.matched ++ found.rest ∧ (plus p).Matches found.matched found.captures := by
  induction text generalizing found with
  | nil =>
    simp only [runPlus, List.not_mem_nil, false_iff, not_and]
    rintro htext ⟨hne, -⟩
    exact hne (List.append_eq_nil_iff.mp htext.symm).1
  | cons c text ih =>
    obtain ⟨m, rest, captures⟩ := found
    by_cases hc : p c = true
    · rw [runPlus, if_pos hc, List.mem_append, List.mem_map, List.mem_singleton]
      constructor
      · rintro (⟨found, hfound, heq⟩ | heq)
        · cases heq
          obtain ⟨htext, -, hall, hcaptures⟩ := ih.mp hfound
          refine ⟨by rw [htext]; rfl, by simp, ?_, hcaptures⟩
          intro d hd
          rcases List.mem_cons.mp hd with rfl | hd
          · exact hc
          · exact hall d hd
        · cases heq
          exact ⟨rfl, by simp, by simpa using hc, rfl⟩
      · rintro ⟨htext, hne, hall, hcaptures⟩
        obtain rfl : captures = [] := hcaptures
        cases m with
        | nil => exact absurd rfl hne
        | cons d m =>
          obtain ⟨rfl, htail⟩ := List.cons.inj htext
          by_cases hm : m = []
          · subst hm
            exact .inr (by rw [htail]; rfl)
          · refine .inl ⟨⟨m, rest, []⟩, ih.mpr ⟨htail, hm, fun d hd => hall d ?_, rfl⟩, rfl⟩
            exact List.mem_cons_of_mem c hd
    · rw [runPlus, if_neg hc]
      simp only [List.not_mem_nil, false_iff, not_and]
      rintro htext ⟨hne, hall, -⟩
      cases m with
      | nil => exact hne rfl
      | cons d m =>
        obtain rfl : c = d := (List.cons.inj htext).1
        exact hc (hall c List.mem_cons_self)

theorem mem_run_iff {r : Regex α} {text : List α} {found : Match α} :
    found ∈ r.run text ↔ text = found.matched ++ found.rest ∧ r.Matches found.matched found.captures := by
  induction r generalizing text found with
  | one p =>
    obtain ⟨m, rest, captures⟩ := found
    cases text with
    | nil =>
      simp only [run, List.not_mem_nil, false_iff, not_and]
      rintro htext ⟨c, -, rfl, -⟩
      cases htext
    | cons c text =>
      by_cases hc : p c = true
      · rw [run, if_pos hc, List.mem_singleton]
        constructor
        · intro heq
          cases heq
          exact ⟨rfl, c, hc, rfl, rfl⟩
        · rintro ⟨htext, d, -, hm, hcaptures⟩
          obtain rfl : m = [d] := hm
          obtain rfl : captures = [] := hcaptures
          obtain ⟨rfl, rfl⟩ := List.cons.inj htext
          rfl
      · rw [run, if_neg hc]
        simp only [List.not_mem_nil, false_iff, not_and]
        rintro htext ⟨d, hd, rfl, -⟩
        obtain rfl : c = d := (List.cons.inj htext).1
        exact hc hd
  | plus p => exact mem_runPlus_iff
  | opt r ih =>
    rw [run, List.mem_append, ih, List.mem_singleton]
    obtain ⟨m, rest, captures⟩ := found
    constructor
    · rintro (⟨htext, hm⟩ | heq)
      · exact ⟨htext, .inl hm⟩
      · cases heq
        exact ⟨rfl, .inr ⟨rfl, rfl⟩⟩
    · rintro ⟨htext, hm | ⟨hnil, hcaptures⟩⟩
      · exact .inl ⟨htext, hm⟩
      · obtain rfl : m = [] := hnil
        obtain rfl : captures = [] := hcaptures
        exact .inr (by rw [htext]; rfl)
  | seq r s ihr ihs =>
    simp only [run, List.mem_flatMap, List.mem_map, ihr, ihs]
    obtain ⟨m, rest, captures⟩ := found
    constructor
    · rintro ⟨first, ⟨htext, hfirst⟩, second, ⟨hrest, hsecond⟩, heq⟩
      cases heq
      refine ⟨?_, _, _, _, _, hfirst, hsecond, rfl, rfl⟩
      rw [htext, hrest, List.append_assoc]
    · rintro ⟨htext, m₁, captures₁, m₂, captures₂, hfirst, hsecond, hm, hcaptures⟩
      obtain rfl : m = m₁ ++ m₂ := hm
      obtain rfl : captures = captures₁ ++ captures₂ := hcaptures
      refine ⟨⟨m₁, m₂ ++ rest, captures₁⟩, ⟨?_, hfirst⟩, ⟨m₂, rest, captures₂⟩, ⟨rfl, hsecond⟩, rfl⟩
      rw [htext, List.append_assoc]
  | group r ih =>
    simp only [run, List.mem_map, ih]
    obtain ⟨m, rest, captures⟩ := found
    constructor
    · rintro ⟨inner, ⟨htext, hinner⟩, heq⟩
      cases heq
      exact ⟨htext, inner.captures, hinner, rfl⟩
    · rintro ⟨htext, captures', hinner, hcaptures⟩
      obtain rfl : captures = m :: captures' := hcaptures
      exact ⟨⟨m, rest, captures'⟩, ⟨htext, hinner⟩, rfl⟩

/-! ### Searching -/

/-- The search from a place on, which is `skip` characters ahead: the end of the last match. -/
def search (r : Regex α) : Nat → List α → List (List (List α))
  | _, [] => []
  | skip + 1, _ :: text => r.search skip text
  | 0, c :: text =>
    match r.run (c :: text) with
    | [] => r.search 0 text
    | found :: _ => found.captures :: r.search (text.length - found.rest.length) text

def capturesIter (r : Regex α) (text : List α) : List (List (List α)) := r.search 0 text

theorem leftmost_search {r : Regex α} (hempty : ∀ captures, ¬r.Matches [] captures) (skip : Nat) (text : List α) :
    Leftmost r.Matches (text.drop skip) (r.search skip text) := by
  induction text generalizing skip with
  | nil =>
    rw [List.drop_nil]
    refine .none fun before m after captures htext hm => hempty captures ?_
    obtain rfl : m = [] := (List.append_eq_nil_iff.mp (List.append_eq_nil_iff.mp htext.symm).1).2
    exact hm
  | cons c text ih =>
    cases skip with
    | succ skip => exact ih skip
    | zero =>
      rw [List.drop_zero, search]
      cases hrun : r.run (c :: text) with
      | nil =>
        refine (ih 0).cons c fun m after captures htext hm => ?_
        have hmem : ⟨m, after, captures⟩ ∈ r.run (c :: text) := mem_run_iff.mpr ⟨htext, hm⟩
        rw [hrun] at hmem
        cases hmem
      | cons found others =>
        obtain ⟨m, rest, captures⟩ := found
        have hmem : ⟨m, rest, captures⟩ ∈ r.run (c :: text) := by
          rw [hrun]
          exact List.mem_cons_self
        obtain ⟨htext, hm⟩ := mem_run_iff.mp hmem
        cases m with
        | nil => exact absurd hm (hempty captures)
        | cons d m =>
          have htail : text = m ++ rest := (List.cons.inj htext).2
          have hlength : text.length - rest.length = m.length := by simp [htail]
          have hrest := ih (text.length - rest.length)
          rw [hlength, htail, List.drop_left, ← htail, ← hlength] at hrest
          have hnil : c :: text = [] ++ (d :: m) ++ rest := htext
          exact .next hnil hm (fun _ _ _ _ _ _ => Nat.zero_le _) hrest

theorem leftmost_capturesIter {r : Regex α} (hempty : ∀ captures, ¬r.Matches [] captures) (text : List α) :
    Leftmost r.Matches text (r.capturesIter text) :=
  leftmost_search hempty 0 text

end Regex

end Tulpje.Lib
