import Tulpje.Lib.Indexed
import Tulpje.Lib.Placed

/-!
# Indexes that cover a store

Removing values without touching their index leaves keys in it that hold nothing. `Covers` is what then remains
of `Placing.Agrees`: every value is listed at its place, and an index lists elements of its own key only.
Dropping what an index lists and a list of items does not, and writing the items, still makes a snapshot of
them (`isSnapshot`).
-/

namespace Tulpje.Lib.Placing

variable {F K E V : Type} (p : Placing F K E)

structure Covers (ok : F → V → Prop) (index : K → Finset E) (store : F → Option V) : Prop where
  stored : ∀ {f v}, store f = some v → ok f v
  placed : ∀ {k e}, e ∈ index k → p.place (p.field k e) = some (k, e)
  listed : ∀ {f v k e}, store f = some v → p.place f = some (k, e) → e ∈ index k

variable {p} {ok : F → V → Prop} {index : K → Finset E} {store : F → Option V}

theorem covers_empty : p.Covers ok (fun _ => ∅) fun _ => none where
  stored h := by cases h
  placed h := absurd h (Finset.notMem_empty _)
  listed h := by cases h

theorem Covers.forget (h : p.Covers ok index store) {store' : F → Option V}
    (hle : ∀ f v, store' f = some v → store f = some v) : p.Covers ok index store' where
  stored hf := h.stored (hle _ _ hf)
  placed := h.placed
  listed hf := h.listed (hle _ _ hf)

section Updates
variable [DecidableEq F] [DecidableEq K] [DecidableEq E]

theorem Covers.put (h : p.Covers ok index store) {f : F} {v : V} {k : K} {e : E}
    (hplace : p.place f = some (k, e)) (hok : ok f v) :
    p.Covers ok (Function.update index k (insert e (index k))) (Function.update store f (some v)) := by
  have hmem : ∀ k' e', e' ∈ Function.update index k (insert e (index k)) k' ↔
      (k', e') = (k, e) ∨ e' ∈ index k' := by
    intro k' e'
    by_cases hk : k' = k
    · subst hk
      simp
    · simp [hk]
  constructor
  · intro f' v' hstored
    by_cases hf : f' = f
    · subst hf
      rw [Function.update_self] at hstored
      rwa [← Option.some.inj hstored]
    · rw [Function.update_of_ne hf] at hstored
      exact h.stored hstored
  · intro k' e' he
    rcases (hmem k' e').mp he with heq | he
    · cases heq
      rwa [p.field_of_place hplace]
    · exact h.placed he
  · intro f' v' k' e' hstored hplace'
    apply (hmem k' e').mpr
    by_cases hf : f' = f
    · subst hf
      exact .inl (Option.some.inj (hplace'.symm.trans hplace))
    · rw [Function.update_of_ne hf] at hstored
      exact .inr (h.listed hstored hplace')

theorem Covers.remove (h : p.Covers ok index store) (k : K) (es : Finset E) :
    p.Covers ok (Function.update index k (index k \ es))
      fun f => if f ∈ es.image (p.field k) then none else store f := by
  have hmem : ∀ k' e', e' ∈ Function.update index k (index k \ es) k' ↔
      ¬ (k' = k ∧ e' ∈ es) ∧ e' ∈ index k' := by
    intro k' e'
    by_cases hk : k' = k
    · subst hk
      simp [and_comm]
    · simp [hk]
  constructor
  · intro f v hstored
    exact h.stored (Option.ite_none_left_eq_some.mp hstored).2
  · intro k' e he
    exact h.placed ((hmem k' e).mp he).2
  · intro f v k' e hstored hplace
    obtain ⟨hkept, hstored⟩ := Option.ite_none_left_eq_some.mp hstored
    refine (hmem k' e).mpr ⟨?_, h.listed hstored hplace⟩
    rintro ⟨rfl, he⟩
    exact hkept (Finset.mem_image.mpr ⟨e, he, p.field_of_place hplace⟩)

end Updates

/-! ### Reconciling an index with a list -/

/-- The values of one key, read through `decode`. -/
def view {W : Type} (decode : V → Option W) (index : K → Finset E) (store : F → Option V) (p : Placing F K E)
    (k : K) : Indexed E W :=
  ⟨index k, fun e => (store (p.field k e)).bind decode⟩

section Reconcile
variable {W : Type} {decode : V → Option W} {owner : W → K}

/-- A value that is in order can be read, and its owner is the key of its place. -/
def Read (decode : V → Option W) (owner : W → K) (p : Placing F K E) (f : F) (v : V) : Prop :=
  ∃ w, decode v = some w ∧ (p.place f).map Prod.fst = some (owner w)

theorem Covers.of_view (h : p.Covers (Read decode owner p) index store) {k : K} {e : E} {w : W}
    (hw : (view decode index store p k).store e = some w) :
    ∃ v, store (p.field k e) = some v ∧ p.place (p.field k e) = some (owner w, e) := by
  obtain ⟨v, hv, hdecode⟩ := Option.bind_eq_some_iff.mp hw
  obtain ⟨w', hw', hplace⟩ := h.stored hv
  obtain rfl : w' = w := Option.some.inj (hw'.symm.trans hdecode)
  obtain ⟨⟨k', e'⟩, hplace, rfl⟩ := Option.map_eq_some_iff.mp hplace
  obtain rfl : e' = e := p.elem_of_place hplace
  exact ⟨v, hv, hplace⟩

variable [DecidableEq E]

/-- Stale elements are dropped and the items of a key written; what is the same is skipped. -/
theorem Covers.isSnapshot (h : p.Covers (Read decode owner p) index store) {k : K} {items : List (E × W)}
    {same : W → W → Bool} (hnodup : (items.map Prod.fst).Nodup)
    (hplace : ∀ item ∈ items, p.place (p.field k item.1) = some (k, item.1))
    (howner : ∀ item ∈ items, owner item.2 = k)
    (hsame : ∀ v w, owner v = k → owner w = k → same v w = true → v = w) :
    Indexed.IsSnapshot (fun w => owner w = k) items (view decode index store p k)
      (((view decode index store p k).dropStale (items.map Prod.fst)).putAll same items) := by
  have hexclusive : Indexed.Exclusive (fun w => owner w = k) items (view decode index store p k) := by
    refine ⟨hnodup, howner, fun e he w hw => ?_⟩
    obtain ⟨item, hitem, rfl⟩ := List.mem_map.mp he
    obtain ⟨v, -, hv⟩ := h.of_view hw
    exact congrArg Prod.fst (Option.some.inj (hv.symm.trans (hplace item hitem)))
  refine (Indexed.dropStale_putAll_isSnapshot_iff hexclusive hsame).mpr ⟨?_, ?_, ?_⟩
  · -- a value of the key is listed
    intro e w hw hown
    obtain ⟨v, hv, hat⟩ := h.of_view hw
    rw [hown] at hat
    exact .inr (h.listed hv hat)
  · -- so is one that is skipped
    intro item hitem hskip
    obtain ⟨w, hw, -⟩ := (Option.any_eq_true _ _).mp hskip
    obtain ⟨v, hv, -⟩ := h.of_view hw
    exact h.listed hv (hplace item hitem)
  · -- and what the index lists belongs to the key
    intro e he _ w hw
    obtain ⟨v, -, hv⟩ := h.of_view hw
    exact congrArg Prod.fst (Option.some.inj (hv.symm.trans (h.placed he)))

end Reconcile

end Tulpje.Lib.Placing
