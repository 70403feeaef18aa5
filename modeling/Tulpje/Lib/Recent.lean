import Mathlib.Data.List.Nodup
import Mathlib.Data.Set.Defs
import Mathlib.Logic.Function.Basic

/-!
# Bounded lists of recent keys

Every key has an owner. A store holds some of the keys, and each owner has a list of at most `size` keys, the
most recent one first. `Recent.Valid` says that the lists hold what the store holds, each key once. A new key
goes in front of its owner's list; if the list is full, its last key is evicted from the list and the store.
-/

namespace Tulpje.Lib.Recent

variable {I C : Type*} [DecidableEq I] [DecidableEq C]

/-- What is left of a list when it has to take one more key. -/
def room (size : Nat) (l : List I) : List I := if size ≤ l.length then l.dropLast else l

/-- The key that has to go for that. -/
def evicted (size : Nat) (l : List I) : Option I := if size ≤ l.length then l.getLast? else none

variable {size : Nat} {l : List I} {i : I}

omit [DecidableEq I] in
theorem room_sublist (size : Nat) (l : List I) : (room size l).Sublist l := by
  unfold room
  split_ifs
  · exact List.dropLast_sublist l
  · exact List.Sublist.refl l

omit [DecidableEq I] in
theorem mem_of_evicted (h : evicted size l = some i) : i ∈ l := by
  unfold evicted at h
  split_ifs at h
  exact List.mem_of_getLast? h

omit [DecidableEq I] in
theorem mem_room (hl : l.Nodup) : i ∈ room size l ↔ i ∈ l ∧ evicted size l ≠ some i := by
  unfold room evicted
  split_ifs with hfull
  · rcases List.eq_nil_or_concat l with rfl | ⟨l, last, rfl⟩
    · simp
    · rw [List.concat_eq_append] at hl ⊢
      have hlast : last ∉ l := fun h => List.disjoint_of_nodup_append hl h (List.mem_singleton_self last)
      simp only [List.dropLast_concat, List.getLast?_concat, List.mem_append, List.mem_singleton, ne_eq,
        Option.some.injEq]
      constructor
      · exact fun hi => ⟨.inl hi, fun heq => hlast (heq ▸ hi)⟩
      · rintro ⟨hi | rfl, hne⟩
        · exact hi
        · exact absurd rfl hne
  · simp

omit [DecidableEq I] in
theorem length_room (hsize : 1 ≤ size) (hl : l.length ≤ size) : (room size l).length < size := by
  unfold room
  split_ifs with hfull
  · rw [List.length_dropLast]
    omega
  · exact Nat.lt_of_not_le hfull

/-! ### The invariant -/

structure Valid (size : Nat) (owner : I → C) (lists : C → List I) (stored : Set I) : Prop where
  nodup : ∀ c, (lists c).Nodup
  bounded : ∀ c, (lists c).length ≤ size
  mem : ∀ c i, i ∈ lists c ↔ i ∈ stored ∧ owner i = c

namespace Valid
variable {owner : I → C} {lists lists' : C → List I} {stored stored' : Set I}

omit [DecidableEq I] [DecidableEq C] in
theorem empty (size : Nat) (owner : I → C) : Valid size owner (fun _ => []) ∅ where
  nodup _ := List.nodup_nil
  bounded _ := Nat.zero_le size
  mem _ _ := iff_of_false List.not_mem_nil fun h => h.1

omit [DecidableEq I] in
/-- A key that is not in the list, or is the one that is evicted for it. -/
theorem push (h : Valid size owner lists stored) (hsize : 1 ≤ size)
    (hi : i ∉ room size (lists (owner i)))
    (hlists : lists' = Function.update lists (owner i) (i :: room size (lists (owner i))))
    (hstored : ∀ j, j ∈ stored' ↔ j = i ∨ j ∈ stored ∧ evicted size (lists (owner i)) ≠ some j) :
    Valid size owner lists' stored' := by
  subst hlists
  have hroom := room_sublist size (lists (owner i))
  refine ⟨fun c => ?_, fun c => ?_, fun c j => ?_⟩
  · by_cases hc : c = owner i
    · subst hc
      rw [Function.update_self]
      exact List.nodup_cons.mpr ⟨hi, (h.nodup _).sublist hroom⟩
    · rw [Function.update_of_ne hc]
      exact h.nodup c
  · by_cases hc : c = owner i
    · subst hc
      rw [Function.update_self, List.length_cons]
      exact length_room hsize (h.bounded _)
    · rw [Function.update_of_ne hc]
      exact h.bounded c
  · rw [hstored]
    by_cases hc : c = owner i
    · subst hc
      rw [Function.update_self, List.mem_cons, mem_room (h.nodup _), h.mem]
      constructor
      · rintro (rfl | ⟨⟨hj, howner⟩, hne⟩)
        · exact ⟨.inl rfl, rfl⟩
        · exact ⟨.inr ⟨hj, hne⟩, howner⟩
      · rintro ⟨rfl | ⟨hj, hne⟩, howner⟩
        · exact .inl rfl
        · exact .inr ⟨⟨hj, howner⟩, hne⟩
    · rw [Function.update_of_ne hc, h.mem]
      -- the evicted key belongs to the owner of the new one
      have hevicted : ∀ j, owner j = c → evicted size (lists (owner i)) ≠ some j := by
        rintro j rfl heq
        exact hc ((h.mem _ j).mp (mem_of_evicted heq)).2
      constructor
      · rintro ⟨hj, howner⟩
        exact ⟨.inr ⟨hj, hevicted j howner⟩, howner⟩
      · rintro ⟨rfl | ⟨hj, -⟩, howner⟩
        · exact absurd howner.symm hc
        · exact ⟨hj, howner⟩

/-- Keys of one owner are taken out of its list and the store. -/
theorem remove (h : Valid size owner lists stored) {c : C} {ids : List I} (hids : ∀ i ∈ ids, owner i = c)
    (hlists : lists' = Function.update lists c ((lists c).diff ids))
    (hstored : ∀ j, j ∈ stored' ↔ j ∈ stored ∧ j ∉ ids) : Valid size owner lists' stored' := by
  subst hlists
  have hsub := List.diff_sublist (lists c) ids
  refine ⟨fun c' => ?_, fun c' => ?_, fun c' j => ?_⟩
  · by_cases hc : c' = c
    · subst hc
      rw [Function.update_self]
      exact (h.nodup _).sublist hsub
    · rw [Function.update_of_ne hc]
      exact h.nodup c'
  · by_cases hc : c' = c
    · subst hc
      rw [Function.update_self]
      exact Nat.le_trans hsub.length_le (h.bounded _)
    · rw [Function.update_of_ne hc]
      exact h.bounded c'
  · rw [hstored]
    by_cases hc : c' = c
    · subst hc
      rw [Function.update_self, (h.nodup c').mem_sdiff_iff, h.mem]
      tauto
    · rw [Function.update_of_ne hc, h.mem]
      constructor
      · rintro ⟨hj, rfl⟩
        exact ⟨⟨hj, fun hmem => hc (hids j hmem)⟩, rfl⟩
      · rintro ⟨⟨hj, -⟩, howner⟩
        exact ⟨hj, howner⟩

end Valid

omit [DecidableEq I] in
/-- A key in front of a list that keeps it is there twice. -/
theorem not_nodup_push (hi : i ∈ room size l) : ¬ (i :: room size l).Nodup :=
  fun h => (List.nodup_cons.mp h).1 hi

end Tulpje.Lib.Recent
