import Mathlib.Data.List.DropRight

/-!
# Rows that are added and cleaned up

A step removes the rows whose key it does not keep, and adds rows of its own. After a run the rows with a key are those
that were added since the last step that does not keep the key: `filter_run`.
-/

namespace Tulpje.Lib

/-- The steps of type `A` on rows of type `R` with keys of type `K`. -/
structure Retention (A R K : Type*) where
  key : R → K
  keeps : A → K → Bool
  adds : A → List R

namespace Retention

variable {A R K : Type*} (t : Retention A R K)

def step (rows : List R) (a : A) : List R := rows.filter (fun r => t.keeps a (t.key r)) ++ t.adds a

/-- A step does not add rows with keys that it does not keep. -/
def Consistent : Prop := ∀ a, ∀ r ∈ t.adds a, t.keeps a (t.key r) = true

/-- The rows added since the last step that does not keep the key. -/
def addedSince [DecidableEq K] (acts : List A) (k : K) : List R :=
  ((acts.rtakeWhile fun a => t.keeps a k).flatMap t.adds).filter fun r => t.key r = k

variable {t} [DecidableEq K]

theorem addedSince_concat (acts : List A) (a : A) (k : K) :
    t.addedSince (acts ++ [a]) k =
      if t.keeps a k = true then t.addedSince acts k ++ (t.adds a).filter fun r => t.key r = k else [] := by
  unfold addedSince
  rw [List.rtakeWhile_concat]
  split
  · rw [List.flatMap_append, List.filter_append, List.flatMap_singleton]
  · rfl

theorem filter_step (ht : t.Consistent) (rows : List R) (a : A) (k : K) :
    (t.step rows a).filter (fun r => t.key r = k) =
      if t.keeps a k = true then rows.filter (fun r => t.key r = k) ++ (t.adds a).filter fun r => t.key r = k
      else [] := by
  rw [step, List.filter_append, List.filter_filter]
  split
  next hkeeps =>
    refine congrArg (· ++ _) (List.filter_congr fun r _ => ?_)
    by_cases hr : t.key r = k
    · simp [hr, hkeeps]
    · simp [hr]
  next hkeeps =>
    rw [List.append_eq_nil_iff, List.filter_eq_nil_iff, List.filter_eq_nil_iff]
    constructor
    · rintro r - hr
      simp only [Bool.and_eq_true, decide_eq_true_eq] at hr
      exact hkeeps (hr.1 ▸ hr.2)
    · intro r hadded hr
      exact hkeeps (of_decide_eq_true hr ▸ ht a r hadded)

theorem filter_run (ht : t.Consistent) (rows : List R) (acts : List A) (k : K) :
    (acts.foldl t.step rows).filter (fun r => t.key r = k) =
      (if (acts.all fun a => t.keeps a k) = true then rows.filter fun r => t.key r = k else []) ++
        t.addedSince acts k := by
  induction acts using List.reverseRecOn with
  | nil => simp [addedSince]
  | append_singleton acts a ih =>
    rw [List.foldl_concat, filter_step ht, addedSince_concat, ih, List.all_append]
    by_cases hkeeps : t.keeps a k = true
    · simp [hkeeps]
    · simp [hkeeps]

end Retention

end Tulpje.Lib
