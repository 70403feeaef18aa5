import Mathlib.Algebra.Order.Monoid.Unbundled.Basic
import Mathlib.Algebra.Order.Monoid.Defs
import Mathlib.Data.List.Basic
import Mathlib.Tactic.Abel

/-!
# Runs of a total step function

A run is `List.foldl step` over a list of actions. `AllSteps C` says that every step of a run meets `C`
in the state it starts from; an invariant that the steps meeting `C` keep holds at the end of such a
run (`foldl_of_allSteps`), `foldl_iff_not_allSteps` is about what the first other step breaks for good, and
`forall_prefix_iff_allSteps` about what it breaks for the time being.
`foldl_ledger` is the exact version for a resource: if each step accounts
for what it loses, the run loses nothing if and only if no step does. `rank_foldl_le` bounds the number
of counted steps by a rank.
-/

namespace Tulpje.Lib

variable {σ α : Type*} {step : σ → α → σ}

theorem foldl_invariant (P : σ → Prop) (hstep : ∀ s a, P s → P (step s a)) {s : σ} (hs : P s)
    (acts : List α) : P (acts.foldl step s) := by
  induction acts generalizing s with
  | nil => exact hs
  | cons a acts ih => exact ih (hstep s a hs)

theorem foldl_pair {τ : Type*} (step' : τ → α → τ) (acts : List α) (s : σ × τ) :
    acts.foldl (fun s a => (step s.1 a, step' s.2 a)) s = (acts.foldl step s.1, acts.foldl step' s.2) := by
  induction acts generalizing s with
  | nil => rfl
  | cons a acts ih => exact ih _

variable (step) in
/-- Every step of the run from `s` meets `C` in the state it starts from. -/
def AllSteps (C : σ → α → Prop) : σ → List α → Prop
  | _, [] => True
  | s, a :: acts => C s a ∧ AllSteps C (step s a) acts

instance decidableAllSteps (C : σ → α → Prop) [∀ s a, Decidable (C s a)] (s : σ) (acts : List α) :
    Decidable (AllSteps step C s acts) :=
  match acts with
  | [] => .isTrue trivial
  | a :: acts =>
    have := decidableAllSteps C (step s a) acts
    inferInstanceAs (Decidable (_ ∧ _))

theorem AllSteps.of_forall {C : σ → α → Prop} (h : ∀ s a, C s a) (s : σ) (acts : List α) :
    AllSteps step C s acts := by
  induction acts generalizing s with
  | nil => trivial
  | cons a acts ih => exact ⟨h s a, ih _⟩

theorem AllSteps.of_isPrefix {C : σ → α → Prop} {s : σ} {acts acts' : List α} (h : AllSteps step C s acts)
    (hacts : acts' <+: acts) : AllSteps step C s acts' := by
  obtain ⟨rest, rfl⟩ := hacts
  induction acts' generalizing s with
  | nil => trivial
  | cons a acts' ih => exact ⟨h.1, ih h.2⟩

theorem allSteps_congr {C C' : σ → α → Prop} (I : σ → Prop) (hinv : ∀ s a, I s → I (step s a))
    (hC : ∀ s a, I s → (C s a ↔ C' s a)) {s : σ} (hs : I s) (acts : List α) :
    AllSteps step C s acts ↔ AllSteps step C' s acts := by
  induction acts generalizing s with
  | nil => exact Iff.rfl
  | cons a acts ih => rw [AllSteps, AllSteps, hC s a hs, ih (hinv s a hs)]

/-- A condition on a view of the states that takes steps of its own. -/
theorem allSteps_view {τ : Type*} {step' : τ → α → τ} {C' : τ → α → Prop} (f : σ → τ)
    (hstep : ∀ s a, f (step s a) = step' (f s) a) (s : σ) (acts : List α) :
    AllSteps step (fun s a => C' (f s) a) s acts ↔ AllSteps step' C' (f s) acts := by
  induction acts generalizing s with
  | nil => exact Iff.rfl
  | cons a acts ih => rw [AllSteps, AllSteps, ih, hstep]

theorem exists_of_not_allSteps {C : σ → α → Prop} {s : σ} {acts : List α}
    (h : ¬ AllSteps step C s acts) :
    ∃ pre a post, acts = pre ++ a :: post ∧ ¬ C (pre.foldl step s) a := by
  induction acts generalizing s with
  | nil => exact absurd trivial h
  | cons a acts ih =>
    by_cases ha : C s a
    · obtain ⟨pre, b, post, rfl, hb⟩ := ih fun hacts => h ⟨ha, hacts⟩
      exact ⟨a :: pre, b, post, rfl, hb⟩
    · exact ⟨[], a, acts, rfl, ha⟩

theorem foldl_of_allSteps {C : σ → α → Prop} (P : σ → Prop)
    (hstep : ∀ s a, P s → C s a → P (step s a)) {s : σ} {acts : List α}
    (hacts : AllSteps step C s acts) (hs : P s) : P (acts.foldl step s) := by
  induction acts generalizing s with
  | nil => exact hs
  | cons a acts ih => exact ih hacts.2 (hstep s a hs hacts.1)

/-- A property that comes with the first step that does not meet `C`, and stays. -/
theorem foldl_iff_not_allSteps {C : σ → α → Prop} (I bad : σ → Prop)
    (hinv : ∀ s a, I s → I (step s a))
    (hstep : ∀ s a, I s → (bad (step s a) ↔ bad s ∨ ¬ C s a)) {s : σ} (acts : List α) (hs : I s) :
    bad (acts.foldl step s) ↔ bad s ∨ ¬ AllSteps step C s acts := by
  induction acts generalizing s with
  | nil => exact (or_iff_left fun h => h trivial).symm
  | cons a acts ih =>
    rw [List.foldl_cons, ih (hinv s a hs), hstep s a hs, AllSteps, not_and_or, or_assoc]

/-- If a good state stays good exactly in the steps that meet `C`, a run is good all along exactly if all its
steps meet `C`. -/
theorem forall_prefix_iff_allSteps {C : σ → α → Prop} {D : α → Prop} (I good : σ → Prop)
    (hinv : ∀ s a, I s → D a → I (step s a))
    (hstep : ∀ s a, I s → D a → good s → (good (step s a) ↔ C s a)) {s : σ} {acts : List α}
    (hacts : ∀ a ∈ acts, D a) (hs : I s) (hgood : good s) :
    (∀ pre, pre <+: acts → good (pre.foldl step s)) ↔ AllSteps step C s acts := by
  induction acts generalizing s with
  | nil =>
    refine iff_of_true (fun pre hpre => ?_) trivial
    rw [List.prefix_nil.mp hpre]
    exact hgood
  | cons a acts ih =>
    obtain ⟨ha, hacts⟩ := List.forall_mem_cons.mp hacts
    have hone := hstep s a hs ha hgood
    constructor
    · intro h
      have hnext : good (step s a) := h [a] ((List.prefix_cons_inj a).mpr List.nil_prefix)
      refine ⟨hone.mp hnext, (ih hacts (hinv s a hs ha) hnext).mp fun pre hpre => ?_⟩
      exact h (a :: pre) ((List.prefix_cons_inj a).mpr hpre)
    · rintro ⟨hC, hrest⟩ pre hpre
      have hnext := hone.mpr hC
      rcases List.prefix_cons_iff.mp hpre with rfl | ⟨rest, rfl, hrest'⟩
      · exact hgood
      · exact (ih hacts (hinv s a hs ha) hnext).mpr hrest rest hrest'

/-- A rank that never grows and that the counted steps decrease: after `n` of them it is down by `n`. -/
theorem rank_foldl_le {C : σ → α → Prop} (I : σ → Prop) (counted : α → Bool) (rank : σ → Nat)
    (hinv : ∀ s a, I s → C s a → I (step s a))
    (hstep : ∀ s a, I s → C s a → rank (step s a) ≤ rank s - if counted a then 1 else 0)
    {s : σ} {acts : List α} (hacts : AllSteps step C s acts) (hs : I s) :
    rank (acts.foldl step s) ≤ rank s - acts.countP counted := by
  induction acts generalizing s with
  | nil => simp
  | cons a acts ih =>
    have hrun := ih hacts.2 (hinv s a hs hacts.1)
    have hone := hstep s a hs hacts.1
    rw [List.foldl_cons, List.countP_cons]
    omega

section Ledger
variable {M : Type*} [AddCommMonoid M] [PartialOrder M] [IsOrderedCancelAddMonoid M]

/-- If no step lets `held` outgrow `owed`, and exactly the steps that meet `C` keep them level, then a
run keeps them level if and only if all its steps meet `C`. -/
theorem foldl_ledger {C : σ → α → Prop} (I : σ → Prop) (held owed : σ → M)
    (hinv : ∀ s a, I s → I (step s a))
    (hstep : ∀ s a, I s → held (step s a) + owed s ≤ held s + owed (step s a) ∧
      (held (step s a) + owed s = held s + owed (step s a) ↔ C s a))
    {s : σ} (acts : List α) (hs : I s) :
    held (acts.foldl step s) + owed s ≤ held s + owed (acts.foldl step s) ∧
      (held (acts.foldl step s) + owed s = held s + owed (acts.foldl step s) ↔
        AllSteps step C s acts) := by
  induction acts generalizing s with
  | nil => exact ⟨le_refl _, iff_of_true rfl trivial⟩
  | cons a acts ih =>
    obtain ⟨hone, hone_eq⟩ := hstep s a hs
    obtain ⟨hrun, hrun_eq⟩ := ih (hinv s a hs)
    rw [List.foldl_cons, AllSteps, ← hone_eq, ← hrun_eq]
    generalize acts.foldl step (step s a) = t at *
    -- the two ledgers share the amounts of the state in the middle
    have hsum : held t + owed s + (held (step s a) + owed (step s a)) =
        (held (step s a) + owed s) + (held t + owed (step s a)) := by abel
    have hsum' : held s + owed t + (held (step s a) + owed (step s a)) =
        (held s + owed (step s a)) + (held (step s a) + owed t) := by abel
    constructor
    · refine le_of_add_le_add_right (a := held (step s a) + owed (step s a)) ?_
      rw [hsum, hsum']
      exact add_le_add hone hrun
    · rw [← add_left_inj (held (step s a) + owed (step s a)), hsum, hsum']
      exact add_eq_add_iff_eq_and_eq hone hrun

end Ledger

end Tulpje.Lib
