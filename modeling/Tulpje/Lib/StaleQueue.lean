import Mathlib.Data.Finset.Dedup
import Mathlib.Order.Basic

/-!
# Queues by staleness

Each round serves a batch of the eligible elements: the first few in the order of their keys, ties in any
order. If a round gives everything it serves a key above those of all elements that were eligible, and leaves
the keys of the others alone, an element that is served again cannot overtake one that has waited all the time
(`not_starves`).
-/

namespace Tulpje.Lib

variable {α κ : Type} [DecidableEq α]

/-- `ORDER BY key LIMIT limit`. -/
def IsBatch [LE κ] (limit : Nat) (key : α → κ) (eligible : Finset α) (batch : List α) : Prop :=
  ∃ ordered : List α, ordered.Nodup ∧ ordered.toFinset = eligible ∧
    ordered.Pairwise (fun x y => key x ≤ key y) ∧ batch = ordered.take limit

structure Round (α κ : Type) where
  key : α → κ
  eligible : Finset α
  batch : List α

/-- Both rounds serve `s`; `r` was eligible in all rounds from the first to the last and served in none. -/
def Starves (s r : α) (rounds : List (Round α κ)) : Prop :=
  ∃ pre a mid b post, rounds = pre ++ a :: (mid ++ b :: post) ∧ s ∈ a.batch ∧ s ∈ b.batch ∧
    ∀ x ∈ a :: (mid ++ [b]), r ∈ x.eligible ∧ r ∉ x.batch

section Order
variable [Preorder κ] {limit : Nat} {key : α → κ} {eligible : Finset α} {batch : List α}

theorem IsBatch.subset (h : IsBatch limit key eligible batch) {x : α} (hx : x ∈ batch) : x ∈ eligible := by
  obtain ⟨ordered, -, rfl, -, rfl⟩ := h
  exact List.mem_toFinset.mpr (List.mem_of_mem_take hx)

/-- What is staler than an element of the batch is in the batch. -/
theorem IsBatch.mem_of_lt (h : IsBatch limit key eligible batch) {x y : α} (hx : x ∈ batch)
    (hy : y ∈ eligible) (hlt : key y < key x) : y ∈ batch := by
  obtain ⟨ordered, -, rfl, hsorted, rfl⟩ := h
  rw [List.mem_toFinset, ← List.take_append_drop limit ordered, List.mem_append] at hy
  refine hy.resolve_right fun hy => ?_
  rw [← List.take_append_drop limit ordered, List.pairwise_append] at hsorted
  exact hlt.not_ge (hsorted.2.2 x hx y hy)

/-- What one round does until the next: the batch moves behind everything that was eligible. -/
def Renews (a : Round α κ) (key : α → κ) : Prop :=
  (∀ x ∉ a.batch, key x = a.key x) ∧ ∀ x ∈ a.batch, ∀ y ∈ a.eligible, a.key y < key x

/-- A run of rounds that starts with these keys, each renewing its batch. -/
def Fair (limit : Nat) : (α → κ) → List (Round α κ) → Prop
  | _, [] => True
  | key, a :: rounds => a.key = key ∧ IsBatch limit a.key a.eligible a.batch ∧
      ∃ key', Renews a key' ∧ Fair limit key' rounds

/-- As long as the staler of two elements is eligible and not served, the other one is not served. -/
theorem Fair.not_served {rounds : List (Round α κ)} {s r : α} (h : Fair limit key rounds)
    (hkey : key r < key s) {mid : List (Round α κ)} {b : Round α κ} {post : List (Round α κ)}
    (hrounds : rounds = mid ++ b :: post) (hr : ∀ x ∈ mid ++ [b], r ∈ x.eligible ∧ r ∉ x.batch) :
    s ∉ b.batch := by
  induction mid generalizing key rounds with
  | nil =>
    subst hrounds
    obtain ⟨rfl, hbatch, -⟩ := h
    obtain ⟨helig, hnot⟩ := hr b List.mem_cons_self
    exact fun hs => hnot (hbatch.mem_of_lt hs helig hkey)
  | cons a mid ih =>
    subst hrounds
    obtain ⟨rfl, hbatch, key', hrenews, hrest⟩ := h
    obtain ⟨helig, hnot⟩ := hr a List.mem_cons_self
    have hs : s ∉ a.batch := fun hs => hnot (hbatch.mem_of_lt hs helig hkey)
    refine ih hrest ?_ rfl fun x hx => hr x (List.mem_cons_of_mem _ hx)
    rw [hrenews.1 r hnot, hrenews.1 s hs]
    exact hkey

theorem Fair.not_starves {rounds : List (Round α κ)} (h : Fair limit key rounds) (s r : α) :
    ¬ Starves s r rounds := by
  rintro ⟨pre, a, mid, b, post, rfl, hsa, hsb, hr⟩
  induction pre generalizing key with
  | nil =>
    obtain ⟨rfl, -, key', hrenews, hrest⟩ := h
    obtain ⟨helig, hnot⟩ := hr a List.mem_cons_self
    -- after the first round `r` is staler than `s`
    have hkey : key' r < key' s := by
      rw [hrenews.1 r hnot]
      exact hrenews.2 s hsa r helig
    exact hrest.not_served hkey rfl (fun x hx => hr x (List.mem_cons_of_mem _ hx)) hsb
  | cons _ pre ih =>
    obtain ⟨-, -, key', -, hrest⟩ := h
    exact ih hrest

end Order

end Tulpje.Lib
