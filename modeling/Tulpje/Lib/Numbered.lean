import Mathlib.Data.List.Nodup
import Mathlib.Data.List.Perm.Basic

/-!
# Numbered things

A list of things of which no two have the same id, and the ids that new ones get. A thing can be deleted or
modified by its id, and a new one comes at the end.
-/

namespace Tulpje.Lib

structure Numbered {ι α : Type} (idOf : α → ι) where
  items : List α
  newIds : List ι
  nodup : (items.map idOf ++ newIds).Nodup

namespace Numbered

variable {ι α : Type} {idOf : α → ι} {s : Numbered idOf} {a b : α}

theorem nodup_ids : (s.items.map idOf).Nodup := s.nodup.of_append_left

theorem eq_of_id (ha : a ∈ s.items) (hb : b ∈ s.items) (h : idOf a = idOf b) : a = b :=
  List.inj_on_of_nodup_map nodup_ids ha hb h

/-- `none` if there is no id any more. -/
def create (s : Numbered idOf) (make : ι → α) (hmake : ∀ id, idOf (make id) = id) : Option (α × Numbered idOf) :=
  match hids : s.newIds with
  | [] => none
  | id :: newIds => some (make id, ⟨s.items ++ [make id], newIds, by simpa [hmake, ← hids] using s.nodup⟩)

/-- As long as there are ids, a thing is created under one that no other has. -/
theorem exists_create (make : ι → α) (hmake : ∀ id, idOf (make id) = id) (h : 0 < s.newIds.length) :
    ∃ id t, s.create make hmake = some (make id, t) ∧ t.items = s.items ++ [make id] ∧
      (∀ a ∈ s.items, idOf a ≠ id) ∧ s.newIds = id :: t.newIds := by
  obtain ⟨id, newIds, hids⟩ := List.exists_cons_of_length_pos h
  have hfresh : ∀ a ∈ s.items, idOf a ≠ id := by
    have hdisjoint := List.disjoint_of_nodup_append s.nodup
    intro a ha heq
    exact hdisjoint (List.mem_map_of_mem ha) (by simp [hids, heq])
  unfold create
  split
  · next hnil =>
    rw [hids] at hnil
    cases hnil
  · next id' newIds' hids' =>
    obtain ⟨rfl, rfl⟩ := List.cons.inj (hids.symm.trans hids')
    exact ⟨id, _, rfl, rfl, hfresh, hids⟩

variable [DecidableEq ι]

def delete (s : Numbered idOf) (id : ι) : Numbered idOf where
  items := s.items.filter fun a => idOf a ≠ id
  newIds := s.newIds
  nodup := s.nodup.sublist ((List.filter_sublist.map _).append_right _)

/-- The modified thing keeps its id. -/
def modify (s : Numbered idOf) (id : ι) (f : α → α) (hf : ∀ a, idOf (f a) = idOf a) : Numbered idOf where
  items := s.items.map fun a => if idOf a = id then f a else a
  newIds := s.newIds
  nodup := by
    have hids : (idOf ∘ fun a => if idOf a = id then f a else a) = idOf := by
      funext a
      dsimp only [Function.comp]
      split
      · exact hf a
      · rfl
    rw [List.map_map, hids]
    exact s.nodup

theorem mem_delete {id : ι} : a ∈ (s.delete id).items ↔ a ∈ s.items ∧ idOf a ≠ id := by
  simp [delete]

@[simp] theorem newIds_delete (id : ι) : (s.delete id).newIds = s.newIds := rfl

/-- Only the thing itself is deleted. -/
theorem perm_delete (h : a ∈ s.items) : s.items.Perm (a :: (s.delete (idOf a)).items) := by
  classical
  have hnodup : s.items.Nodup := nodup_ids.of_map
  have hfilter : (s.delete (idOf a)).items = s.items.erase a := by
    rw [hnodup.erase_eq_filter]
    refine List.filter_congr fun b hb => ?_
    have hiff : idOf b = idOf a ↔ b = a := ⟨eq_of_id hb h, congrArg _⟩
    simp [hiff, bne, beq_eq_decide]
  rw [hfilter]
  exact List.perm_cons_erase h

section Modify
variable {f : α → α} {hf : ∀ a, idOf (f a) = idOf a}

@[simp] theorem newIds_modify (id : ι) : (s.modify id f hf).newIds = s.newIds := rfl

theorem mem_modify_self (h : a ∈ s.items) : f a ∈ (s.modify (idOf a) f hf).items :=
  List.mem_map.mpr ⟨a, h, if_pos rfl⟩

theorem mem_modify_of_ne {id : ι} (h : a ∈ s.items) (hid : idOf a ≠ id) : a ∈ (s.modify id f hf).items :=
  List.mem_map.mpr ⟨a, h, if_neg hid⟩

theorem mem_modify (ha : a ∈ s.items) :
    b ∈ (s.modify (idOf a) f hf).items ↔ b = f a ∨ b ∈ s.items ∧ idOf b ≠ idOf a := by
  constructor
  · intro hb
    obtain ⟨c, hc, rfl⟩ := List.mem_map.mp hb
    split
    · next hid => exact .inl (congrArg f (eq_of_id hc ha hid))
    · next hid => exact .inr ⟨hc, hid⟩
  · rintro (rfl | ⟨hb, hid⟩)
    · exact mem_modify_self ha
    · exact mem_modify_of_ne hb hid

/-- What the function does not change of a thing, it does not change of the list. -/
theorem map_modify {β : Type} (g : α → β) (hg : ∀ a, g (f a) = g a) (id : ι) :
    (s.modify id f hf).items.map g = s.items.map g := by
  rw [modify, List.map_map]
  refine List.map_congr_left fun a _ => ?_
  dsimp only [Function.comp]
  split
  · exact hg a
  · rfl

end Modify

end Numbered

end Tulpje.Lib
