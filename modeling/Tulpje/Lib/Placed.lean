import Mathlib.Data.Finset.Image
import Mathlib.Logic.Function.Basic

/-!
# Inverted indexes

A store maps fields to values, and an inverted index lists some of its fields: each field has at most one
place, an element under a key. `Agrees` says that an element is listed under a key exactly when the field of
that place is stored. Storing and listing together, storing a field without a place, writing a stored field
again and removing some elements of one key from both keep it.
-/

namespace Tulpje.Lib

/-- Each element has a field of its own; a field stands for at most one element. -/
structure Naming (E F : Type) where
  field : E → F
  elem : F → Option E
  elem_field : ∀ e, elem (field e) = some e
  field_elem : ∀ {f e}, elem f = some e → field e = f

/-- The places of the fields; an element under a key is the place of at most one field, `field`. -/
structure Placing (F K E : Type) where
  place : F → Option (K × E)
  field : K → E → F
  field_of_place : ∀ {f k e}, place f = some (k, e) → field k e = f
  elem_of_place : ∀ {k e k' e'}, place (field k e) = some (k', e') → e' = e

namespace Placing

variable {F K E V : Type}

/-- A field is listed under the home of the element that it stands for, if that has one. -/
def ofHome (naming : Naming E F) (home : E → Option K) : Placing F K E where
  place f := (naming.elem f).bind fun e => (home e).map fun k => (k, e)
  field _ := naming.field
  field_of_place {f k e} h := by
    obtain ⟨e', helem, hhome⟩ := Option.bind_eq_some_iff.mp h
    obtain ⟨k', -, heq⟩ := Option.map_eq_some_iff.mp hhome
    cases heq
    exact naming.field_elem helem
  elem_of_place {k e k' e'} h := by
    rw [naming.elem_field, Option.bind_some] at h
    obtain ⟨_, -, heq⟩ := Option.map_eq_some_iff.mp h
    cases heq
    rfl

theorem ofHome_place (naming : Naming E F) (home : E → Option K) (e : E) :
    (ofHome naming home).place (naming.field e) = (home e).map fun k => (k, e) := by
  show (naming.elem (naming.field e)).bind _ = _
  rw [naming.elem_field, Option.bind_some]

theorem place_of_home {naming : Naming E F} {home : E → Option K} {e : E} {k : K} (h : home e = some k) :
    (ofHome naming home).place (naming.field e) = some (k, e) := by
  rw [ofHome_place, h]
  rfl

theorem place_of_homeless {naming : Naming E F} {home : E → Option K} {e : E} (h : home e = none) :
    (ofHome naming home).place (naming.field e) = none := by
  rw [ofHome_place, h]
  rfl

/-- A field is an element together with its key. -/
def pairs : Placing (K × E) K E where
  place := some
  field := Prod.mk
  field_of_place h := (Option.some.inj h).symm
  elem_of_place h := congrArg Prod.snd (Option.some.inj h).symm

variable (p : Placing F K E)

/-- The owner of the value is the key of the field's place. -/
def Owned (owner : V → Option K) (f : F) (v : V) : Prop := owner v = (p.place f).map Prod.fst

theorem ofHome_owned {naming : Naming E F} {home : E → Option K} {owner : V → Option K} {e : E} {v : V}
    (h : owner v = home e) : (ofHome naming home).Owned owner (naming.field e) v := by
  rw [Owned, ofHome_place, Option.map_map, h]
  exact Option.map_id'.symm

/-- The fields that are stored are those that are listed, and the stored entries are in order. -/
structure Agrees (ok : F → V → Prop) (index : K → Finset E) (store : F → Option V) : Prop where
  stored : ∀ {f v}, store f = some v → ok f v
  listed : ∀ k e, e ∈ index k ↔ ∃ f, p.place f = some (k, e) ∧ ∃ v, store f = some v

variable {p} {ok : F → V → Prop} {index : K → Finset E} {store : F → Option V}

theorem agrees_empty : p.Agrees ok (fun _ => ∅) fun _ => none where
  stored h := by cases h
  listed k e := by simp

/-- An element is listed under a key exactly when its field holds a value that the key owns. -/
theorem Agrees.mem_iff (h : p.Agrees ok index store) {owner : V → Option K}
    (hok : ∀ f v, ok f v → p.Owned owner f v) (k : K) (e : E) :
    e ∈ index k ↔ ∃ v, store (p.field k e) = some v ∧ owner v = some k := by
  rw [h.listed k e]
  constructor
  · rintro ⟨f, hplace, v, hv⟩
    rw [p.field_of_place hplace]
    refine ⟨v, hv, ?_⟩
    rw [hok f v (h.stored hv), hplace]
    rfl
  · rintro ⟨v, hv, howner⟩
    have hfirst := (hok _ v (h.stored hv)).symm.trans howner
    obtain ⟨⟨k', e'⟩, hplace, hk⟩ := Option.map_eq_some_iff.mp hfirst
    -- the place of the field is this element
    obtain rfl : e' = e := p.elem_of_place hplace
    obtain rfl : k' = k := hk
    exact ⟨_, hplace, v, hv⟩

variable [DecidableEq F]

theorem Agrees.stored_update (h : p.Agrees ok index store) {f f' : F} {v v' : V} (hok : ok f v)
    (hstored : Function.update store f (some v) f' = some v') : ok f' v' := by
  by_cases hf : f' = f
  · subst hf
    rw [Function.update_self] at hstored
    rwa [← Option.some.inj hstored]
  · rw [Function.update_of_ne hf] at hstored
    exact h.stored hstored

theorem Agrees.rewrite (h : p.Agrees ok index store) {f : F} {v v' : V} (hv : store f = some v)
    (hok : ok f v') : p.Agrees ok index (Function.update store f (some v')) := by
  constructor
  · exact h.stored_update hok
  · intro k e
    rw [h.listed k e]
    refine exists_congr fun f' => and_congr_right fun _ => ?_
    by_cases hf : f' = f
    · subst hf
      rw [Function.update_self]
      exact iff_of_true ⟨v, hv⟩ ⟨v', rfl⟩
    · rw [Function.update_of_ne hf]

theorem Agrees.put_unlisted (h : p.Agrees ok index store) {f : F} {v : V} (hplace : p.place f = none)
    (hok : ok f v) : p.Agrees ok index (Function.update store f (some v)) := by
  constructor
  · exact h.stored_update hok
  · intro k e
    rw [h.listed k e]
    refine exists_congr fun f' => and_congr_right fun hplace' => ?_
    have hf : f' ≠ f := by
      rintro rfl
      rw [hplace] at hplace'
      cases hplace'
    rw [Function.update_of_ne hf]

/-- A field is removed that has no place or is not stored. -/
theorem Agrees.remove_unlisted (h : p.Agrees ok index store) {f : F}
    (hf : p.place f = none ∨ store f = none) :
    p.Agrees ok index fun f' => if f' ∈ ({f} : Finset F) then none else store f' := by
  constructor
  · intro f' v' hstored
    exact h.stored (Option.ite_none_left_eq_some.mp hstored).2
  · intro k e
    rw [h.listed k e]
    refine exists_congr fun f' => and_congr_right fun hplace' => ?_
    by_cases hmem : f' ∈ ({f} : Finset F)
    · obtain rfl := Finset.mem_singleton.mp hmem
      have hnone : store f' = none := hf.resolve_left fun hplace => by
        rw [hplace] at hplace'
        cases hplace'
      rw [if_pos hmem, hnone]
    · rw [if_neg hmem]

variable [DecidableEq K] [DecidableEq E]

theorem Agrees.put (h : p.Agrees ok index store) {f : F} {v : V} {k : K} {e : E}
    (hplace : p.place f = some (k, e)) (hok : ok f v) :
    p.Agrees ok (Function.update index k (insert e (index k))) (Function.update store f (some v)) := by
  constructor
  · exact h.stored_update hok
  · intro k' e'
    have hmem : e' ∈ Function.update index k (insert e (index k)) k' ↔
        (k', e') = (k, e) ∨ e' ∈ index k' := by
      by_cases hk : k' = k
      · subst hk
        simp
      · simp [hk]
    rw [hmem, h.listed k' e']
    constructor
    · rintro (heq | ⟨f', hplace', hv⟩)
      · exact ⟨f, heq ▸ hplace, v, Function.update_self ..⟩
      · by_cases hf : f' = f
        · exact ⟨f', hplace', v, hf ▸ Function.update_self ..⟩
        · rw [← Function.update_of_ne hf (some v) store] at hv
          exact ⟨f', hplace', hv⟩
    · rintro ⟨f', hplace', hv⟩
      by_cases hf : f' = f
      · subst hf
        exact .inl (Option.some.inj (hplace'.symm.trans hplace))
      · rw [Function.update_of_ne hf] at hv
        exact .inr ⟨f', hplace', hv⟩

theorem Agrees.remove (h : p.Agrees ok index store) (k : K) (es : Finset E)
    (hplace : ∀ e ∈ es, p.place (p.field k e) = some (k, e)) :
    p.Agrees ok (Function.update index k (index k \ es))
      fun f => if f ∈ es.image (p.field k) then none else store f := by
  constructor
  · intro f v hstored
    exact h.stored (Option.ite_none_left_eq_some.mp hstored).2
  · intro k' e
    have hmem : e ∈ Function.update index k (index k \ es) k' ↔ ¬ (k' = k ∧ e ∈ es) ∧ e ∈ index k' := by
      by_cases hk : k' = k
      · subst hk
        simp [and_comm]
      · simp [hk]
    rw [hmem, h.listed k' e, ← exists_and_left]
    refine exists_congr fun f => ?_
    rw [and_left_comm]
    refine and_congr_right fun hplace' => ?_
    have hfield : f ∈ es.image (p.field k) ↔ k' = k ∧ e ∈ es := by
      rw [Finset.mem_image]
      constructor
      · rintro ⟨e', he', rfl⟩
        have heq := Option.some.inj ((hplace e' he').symm.trans hplace')
        cases heq
        exact ⟨rfl, he'⟩
      · rintro ⟨rfl, he⟩
        exact ⟨e, he, p.field_of_place hplace'⟩
    simp only [hfield, Option.ite_none_left_eq_some, exists_and_left]

/-! ### Pairs that are listed under their first part -/

variable {k : K} {e : E} {pairStore : K × E → Option V}

/-- A pair is stored and listed; it does not matter what was there for it before. -/
theorem listed_put (h : ∀ k' e', (k', e') ≠ (k, e) → (e' ∈ index k' ↔ ∃ v, pairStore (k', e') = some v)) (v : V)
    (k' : K) (e' : E) : e' ∈ Function.update index k (insert e (index k)) k' ↔
      ∃ v', Function.update pairStore (k, e) (some v) (k', e') = some v' := by
  by_cases hp : (k', e') = (k, e)
  · cases hp
    rw [Function.update_self, Function.update_self]
    exact iff_of_true (Finset.mem_insert_self ..) ⟨v, rfl⟩
  · rw [Function.update_of_ne hp, ← h k' e' hp]
    by_cases hk : k' = k
    · subst hk
      rw [Function.update_self, Finset.mem_insert]
      exact or_iff_right fun he => hp (congrArg (Prod.mk k') he)
    · rw [Function.update_of_ne hk]

theorem listed_remove (h : ∀ k' e', (k', e') ≠ (k, e) → (e' ∈ index k' ↔ ∃ v, pairStore (k', e') = some v))
    (k' : K) (e' : E) : e' ∈ Function.update index k (index k \ {e}) k' ↔
      ∃ v, (if (k', e') ∈ ({(k, e)} : Finset (K × E)) then none else pairStore (k', e')) = some v := by
  by_cases hp : (k', e') = (k, e)
  · cases hp
    rw [Function.update_self, if_pos (Finset.mem_singleton_self _)]
    simp
  · rw [if_neg fun hmem => hp (Finset.mem_singleton.mp hmem), ← h k' e' hp]
    by_cases hk : k' = k
    · subst hk
      rw [Function.update_self, Finset.mem_sdiff, Finset.mem_singleton]
      exact and_iff_left fun he => hp (congrArg (Prod.mk k') he)
    · rw [Function.update_of_ne hk]

end Placing

end Tulpje.Lib
