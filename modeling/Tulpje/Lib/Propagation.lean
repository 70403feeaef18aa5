import Mathlib.Data.Finset.Lattice.Lemmas
import Mathlib.Logic.Function.Basic
import Mathlib.Logic.Relation

/-!
# Marks that spread along edges in one pass

Nodes carry data, some of which is flagged. A pass visits the nodes of a list one after the other; a flagged node
touches the data of its dependents, and what is touched is flagged. One pass reaches every node that depends on a
flagged one through any number of edges if each node comes after those it depends on (`foldl_visit`). Only a hub,
on which no other node depends, may stand anywhere.
-/

namespace Tulpje.Lib.Propagation

variable {ν σ : Type*} (flagged : σ → Bool) (touch : σ → σ) (dependents : σ → List ν)

def visit [DecidableEq ν] (s : ν → σ) (n : ν) : ν → σ :=
  if flagged (s n) then (dependents (s n)).foldl (fun s r => Function.update s r (touch (s r))) s else s

/-- `r` depends on the node `s` of the list. -/
def Edge (nodes : List ν) (init : ν → σ) (r s : ν) : Prop := s ∈ nodes ∧ r ∈ dependents (init s)

/-- `r` depends on a flagged node through some edges. -/
def Reaches (nodes : List ν) (init : ν → σ) (r : ν) : Prop :=
  ∃ origin, flagged (init origin) = true ∧ Relation.TransGen (Edge dependents nodes init) r origin

/-- Touching flags and leaves the dependents. -/
structure Stable : Prop where
  flags : ∀ d, flagged (touch d) = true
  keeps : ∀ d, dependents (touch d) = dependents d

variable {flagged touch dependents} {init : ν → σ} {nodes : List ν}

theorem Stable.flagged_iterate (hstable : Stable flagged touch dependents) (k : ℕ) (d : σ) :
    flagged (touch^[k] d) = true ↔ 0 < k ∨ flagged d = true := by
  cases k with
  | zero => simp
  | succ k =>
    rw [Function.iterate_succ_apply']
    exact iff_of_true (hstable.flags _) (.inl k.succ_pos)

theorem Stable.dependents_iterate (hstable : Stable flagged touch dependents) (k : ℕ) (d : σ) :
    dependents (touch^[k] d) = dependents d := by
  induction k with
  | zero => rfl
  | succ k ih => rw [Function.iterate_succ_apply', hstable.keeps, ih]

/-! ### The set of touched nodes -/

variable [DecidableEq ν]

/-- The nodes of `T` were touched, maybe more than once, and no others. -/
def Touched (touch : σ → σ) (init : ν → σ) (T : Finset ν) (s : ν → σ) : Prop :=
  ∀ n, ∃ k, s n = touch^[k] (init n) ∧ (0 < k ↔ n ∈ T)

def visitSet (flagged : σ → Bool) (dependents : σ → List ν) (init : ν → σ) (T : Finset ν) (n : ν) : Finset ν :=
  if n ∈ T ∨ flagged (init n) = true then T ∪ (dependents (init n)).toFinset else T

theorem Touched.update {T : Finset ν} {s : ν → σ} (h : Touched touch init T s) (r : ν) :
    Touched touch init (insert r T) (Function.update s r (touch (s r))) := by
  intro n
  obtain ⟨k, hk, hmem⟩ := h n
  by_cases hn : n = r
  · subst hn
    refine ⟨k + 1, ?_, iff_of_true k.succ_pos (Finset.mem_insert_self n T)⟩
    rw [Function.update_self, hk, Function.iterate_succ_apply']
  · refine ⟨k, ?_, hmem.trans ?_⟩
    · rw [Function.update_of_ne hn, hk]
    · rw [Finset.mem_insert, or_iff_right hn]

theorem Touched.foldl {T : Finset ν} {s : ν → σ} (h : Touched touch init T s) (rs : List ν) :
    Touched touch init (T ∪ rs.toFinset) (rs.foldl (fun s r => Function.update s r (touch (s r))) s) := by
  induction rs generalizing T s with
  | nil => rwa [List.toFinset_nil, Finset.union_empty]
  | cons r rs ih =>
    have hset : T ∪ (r :: rs).toFinset = insert r T ∪ rs.toFinset := by
      rw [List.toFinset_cons, Finset.union_insert, Finset.insert_union]
    rw [hset]
    exact ih (h.update r)

theorem Touched.visit (hstable : Stable flagged touch dependents) {T : Finset ν} {s : ν → σ}
    (h : Touched touch init T s) (n : ν) :
    Touched touch init (visitSet flagged dependents init T n) (visit flagged touch dependents s n) := by
  obtain ⟨k, hk, hmem⟩ := h n
  have hflagged : flagged (s n) = true ↔ n ∈ T ∨ flagged (init n) = true := by
    rw [hk, hstable.flagged_iterate, hmem]
  have hdependents : dependents (s n) = dependents (init n) := by rw [hk, hstable.dependents_iterate]
  unfold Propagation.visit visitSet
  by_cases hn : n ∈ T ∨ flagged (init n) = true
  · rw [if_pos (hflagged.mpr hn), if_pos hn, hdependents]
    exact h.foldl _
  · rw [if_neg fun h => hn (hflagged.mp h), if_neg hn]
    exact h

theorem Touched.foldl_visit (hstable : Stable flagged touch dependents) {T : Finset ν} {s : ν → σ}
    (h : Touched touch init T s) (order : List ν) :
    Touched touch init (order.foldl (visitSet flagged dependents init) T)
      (order.foldl (Propagation.visit flagged touch dependents) s) := by
  induction order generalizing T s with
  | nil => exact h
  | cons n order ih => exact ih (h.visit hstable n)

/-! ### One pass is enough -/

/-- A node that is no hub comes after the nodes it depends on, and a hub has no dependent but itself. -/
structure Ordered (dependents : σ → List ν) (init : ν → σ) (hub : ν → Prop) (nodes : List ν) : Prop where
  own : ∀ r s, hub s → Edge dependents nodes init r s → r = s
  before : ∀ pre n post, nodes = pre ++ n :: post → ¬ hub n → ∀ s, Edge dependents nodes init n s → s ∈ pre

theorem reaches_of_mem {order : List ν} (horder : ∀ n ∈ order, n ∈ nodes) {r : ν}
    (hr : r ∈ order.foldl (visitSet flagged dependents init) ∅) : Reaches flagged dependents nodes init r := by
  induction order using List.reverseRecOn generalizing r with
  | nil => cases Finset.notMem_empty r hr
  | append_singleton order n ih =>
    have ih : ∀ {r}, r ∈ order.foldl (visitSet flagged dependents init) ∅ →
        Reaches flagged dependents nodes init r := fun hr => ih (fun n hn => horder n (List.mem_append_left _ hn)) hr
    rw [List.foldl_append, List.foldl_cons, List.foldl_nil, visitSet] at hr
    split at hr
    next hn =>
      rcases Finset.mem_union.mp hr with hr | hr
      · exact ih hr
      · have hedge : Edge dependents nodes init r n := ⟨horder n (by simp), List.mem_toFinset.mp hr⟩
        rcases hn with hn | hn
        · obtain ⟨origin, horigin, hpath⟩ := ih hn
          exact ⟨origin, horigin, .head hedge hpath⟩
        · exact ⟨n, hn, .single hedge⟩
    next => exact ih hr

/-- The dependents of a visited node are touched if it is flagged, and if it is no hub also if it depends on a
flagged node. -/
theorem mem_of_edge {hub : ν → Prop} (hnodes : Ordered dependents init hub nodes) {pre post : List ν}
    (hpre : nodes = pre ++ post) {r s : ν} (hs : s ∈ pre)
    (hflag : flagged (init s) = true ∨ ¬ hub s ∧ Reaches flagged dependents nodes init s)
    (hedge : Edge dependents nodes init r s) : r ∈ pre.foldl (visitSet flagged dependents init) ∅ := by
  induction pre using List.reverseRecOn generalizing post r s with
  | nil => cases hs
  | append_singleton pre n ih =>
    have hsplit : nodes = pre ++ n :: post := by rw [hpre, List.append_assoc, List.singleton_append]
    rw [List.foldl_append, List.foldl_cons, List.foldl_nil, visitSet]
    rcases List.mem_append.mp hs with hs | hs
    · have hr := ih hsplit hs hflag hedge
      split
      · exact Finset.mem_union_left _ hr
      · exact hr
    · obtain rfl := List.mem_singleton.mp hs
      have hvisited : s ∈ pre.foldl (visitSet flagged dependents init) ∅ ∨ flagged (init s) = true := by
        rcases hflag with hflag | ⟨hhub, origin, horigin, hpath⟩
        · exact .inr hflag
        · -- the next node on the path was visited before
          obtain ⟨next, hnext, hrest⟩ := Relation.TransGen.head'_iff.mp hpath
          have hnot : ¬ hub next := fun h => hhub (hnodes.own s next h hnext ▸ h)
          refine .inl (ih hsplit (hnodes.before pre s post hsplit hhub next hnext) ?_ hnext)
          rcases Relation.reflTransGen_iff_eq_or_transGen.mp hrest with rfl | hrest
          · exact .inl horigin
          · exact .inr ⟨hnot, origin, horigin, hrest⟩
      rw [if_pos hvisited]
      exact Finset.mem_union_right _ (List.mem_toFinset.mpr hedge.2)

theorem mem_visitSet_iff {hub : ν → Prop} (hnodes : Ordered dependents init hub nodes) {r : ν} :
    r ∈ nodes.foldl (visitSet flagged dependents init) ∅ ↔ Reaches flagged dependents nodes init r := by
  refine ⟨reaches_of_mem fun _ => id, ?_⟩
  rintro ⟨origin, horigin, hpath⟩
  have hall : nodes = nodes ++ [] := (List.append_nil nodes).symm
  induction hpath using Relation.TransGen.head_induction_on with
  | single hedge => exact mem_of_edge hnodes hall hedge.1 (.inl horigin) hedge
  | @head r next hedge hrest ih =>
    by_cases hhub : hub next
    · rw [hnodes.own r next hhub hedge]
      exact ih
    · exact mem_of_edge hnodes hall hedge.1 (.inr ⟨hhub, origin, horigin, hrest⟩) hedge

/-- One pass touches exactly the nodes that depend on a flagged one. -/
theorem foldl_visit (hstable : Stable flagged touch dependents) {hub : ν → Prop}
    (hnodes : Ordered dependents init hub nodes) (n : ν) :
    ∃ k, nodes.foldl (visit flagged touch dependents) init n = touch^[k] (init n) ∧
      (0 < k ↔ Reaches flagged dependents nodes init n) := by
  have hinit : Touched touch init ∅ init := fun m => ⟨0, rfl, by simp⟩
  obtain ⟨k, hk, hmem⟩ := hinit.foldl_visit hstable nodes n
  exact ⟨k, hk, hmem.trans (mem_visitSet_iff hnodes)⟩

end Tulpje.Lib.Propagation
