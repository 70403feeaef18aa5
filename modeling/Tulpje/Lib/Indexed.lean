import Mathlib.Data.Finset.Filter
import Mathlib.Data.Finset.SDiff
import Mathlib.Data.List.Nodup
import Mathlib.Logic.Function.Basic

/-!
# An index over a store, brought in line with a list

A store maps keys to values and is shared by several owners; the index of one owner lists the keys of
its values. `IsSnapshot own items before after` says that the owner's part is exactly `items` now, and
that the other parts are as before.

Writing may skip an item whose key already holds the same value, and then it does not touch the index
either. Three ways to write the items are compared with a snapshot: writing them all
(`putAll_never_isSnapshot_iff`), clearing the index first (`clearIndex_putAll_isSnapshot_iff`), and
dropping what the index lists and the items do not (`dropStale_putAll_isSnapshot_iff`).
-/

namespace Tulpje.Lib

structure Indexed (K V : Type) where
  index : Finset K
  store : K → Option V

namespace Indexed

variable {K V : Type} [DecidableEq K]

def put (x : Indexed K V) (item : K × V) : Indexed K V :=
  ⟨insert item.1 x.index, Function.update x.store item.1 (some item.2)⟩

/-- The key of the item already holds the same value. -/
def skips (same : V → V → Bool) (x : Indexed K V) (item : K × V) : Bool :=
  (x.store item.1).any fun v => same v item.2

def putUnless (same : V → V → Bool) (x : Indexed K V) (item : K × V) : Indexed K V :=
  if x.skips same item then x else x.put item

def putAll (same : V → V → Bool) (items : List (K × V)) (x : Indexed K V) : Indexed K V :=
  items.foldl (putUnless same) x

/-- The comparison of a writer that skips nothing. -/
def never : V → V → Bool := fun _ _ => false

omit [DecidableEq K] in
@[simp] theorem skips_never (x : Indexed K V) (item : K × V) : x.skips never item = false := by
  unfold skips
  cases x.store item.1 <;> rfl

theorem putUnless_never (x : Indexed K V) (item : K × V) : x.putUnless never item = x.put item := by
  rw [putUnless, skips_never]
  rfl

def clearIndex (x : Indexed K V) : Indexed K V := ⟨∅, x.store⟩

/-- Removes what the index lists and `keys` does not. -/
def dropStale (keys : List K) (x : Indexed K V) : Indexed K V :=
  let stale := x.index.filter (· ∉ keys)
  ⟨x.index \ stale, fun k => if k ∈ stale then none else x.store k⟩

/-! ### What writing a list does -/

section PutAll
variable {same : V → V → Bool} {x : Indexed K V} {items : List (K × V)} {item : K × V} {k : K}

theorem store_putUnless_of_ne (h : k ≠ item.1) : (x.putUnless same item).store k = x.store k := by
  unfold putUnless
  by_cases hskip : x.skips same item = true
  · rw [if_pos hskip]
  · rw [if_neg hskip]
    exact Function.update_of_ne h ..

theorem store_putUnless_self : (x.putUnless same item).store item.1 =
    if x.skips same item then x.store item.1 else some item.2 := by
  unfold putUnless
  by_cases hskip : x.skips same item = true
  · rw [if_pos hskip, if_pos hskip]
  · rw [if_neg hskip, if_neg hskip]
    exact Function.update_self ..

theorem mem_index_putUnless : k ∈ (x.putUnless same item).index ↔
    k ∈ x.index ∨ k = item.1 ∧ x.skips same item = false := by
  unfold putUnless
  by_cases hskip : x.skips same item = true
  · rw [if_pos hskip, hskip]
    exact (or_iff_left fun h => Bool.noConfusion h.2).symm
  · rw [if_neg hskip]
    show k ∈ insert item.1 x.index ↔ _
    rw [Finset.mem_insert, or_comm, and_iff_left (Bool.eq_false_iff.mpr hskip)]

theorem store_putAll_of_notMem (h : k ∉ items.map Prod.fst) :
    (x.putAll same items).store k = x.store k := by
  induction items generalizing x with
  | nil => rfl
  | cons item items ih =>
    obtain ⟨hne, htail⟩ := not_or.mp (List.mem_cons.not.mp h)
    exact (ih htail).trans (store_putUnless_of_ne hne)

/-- Whether an item is skipped depends on its own key only. -/
theorem skips_putUnless_of_ne {item' : K × V} (h : item'.1 ≠ item.1) :
    (x.putUnless same item).skips same item' = x.skips same item' := by
  unfold skips
  rw [store_putUnless_of_ne h]

theorem store_putAll_of_mem (hnodup : (items.map Prod.fst).Nodup) (h : item ∈ items) :
    (x.putAll same items).store item.1 =
      if x.skips same item then x.store item.1 else some item.2 := by
  induction items generalizing x with
  | nil => exact absurd h List.not_mem_nil
  | cons first items ih =>
    obtain ⟨hfirst, htail⟩ := List.nodup_cons.mp hnodup
    rcases List.mem_cons.mp h with rfl | h
    · exact (store_putAll_of_notMem hfirst).trans store_putUnless_self
    · have hne : item.1 ≠ first.1 := fun heq => hfirst (heq ▸ List.mem_map_of_mem h)
      refine (ih htail h).trans ?_
      rw [skips_putUnless_of_ne hne, store_putUnless_of_ne hne]

theorem mem_index_putAll (hnodup : (items.map Prod.fst).Nodup) : k ∈ (x.putAll same items).index ↔
    k ∈ x.index ∨ ∃ item ∈ items, k = item.1 ∧ x.skips same item = false := by
  induction items generalizing x with
  | nil =>
    refine (or_iff_left ?_).symm
    rintro ⟨item, h, -⟩
    exact List.not_mem_nil h
  | cons first items ih =>
    obtain ⟨hfirst, htail⟩ := List.nodup_cons.mp hnodup
    refine (ih htail).trans ?_
    have hskips : ∀ item ∈ items, (x.putUnless same first).skips same item = x.skips same item :=
      fun item h => skips_putUnless_of_ne fun heq => hfirst (heq ▸ List.mem_map_of_mem h)
    rw [mem_index_putUnless, or_assoc]
    refine or_congr_right ?_
    constructor
    · rintro (⟨rfl, hskip⟩ | ⟨item, h, rfl, hskip⟩)
      · exact ⟨first, List.mem_cons_self .., rfl, hskip⟩
      · exact ⟨item, List.mem_cons_of_mem _ h, rfl, (hskips item h) ▸ hskip⟩
    · rintro ⟨item, h, rfl, hskip⟩
      rcases List.mem_cons.mp h with rfl | h
      · exact .inl ⟨rfl, hskip⟩
      · exact .inr ⟨item, h, rfl, (hskips item h).trans hskip⟩

end PutAll

/-! ### Snapshots -/

/-- After the change the owner has exactly `items`, and every value of another owner is where it was. -/
structure IsSnapshot (own : V → Prop) (items : List (K × V)) (before after : Indexed K V) : Prop where
  index : ∀ k, k ∈ after.index ↔ k ∈ items.map Prod.fst
  read : ∀ item ∈ items, after.store item.1 = some item.2
  only : ∀ k v, after.store k = some v → own v → k ∈ items.map Prod.fst
  others : ∀ k v, ¬ own v → (after.store k = some v ↔ before.store k = some v)

/-- The items have distinct keys, belong to the owner, and their keys hold nobody else's values. -/
structure Exclusive (own : V → Prop) (items : List (K × V)) (x : Indexed K V) : Prop where
  nodup : (items.map Prod.fst).Nodup
  owned : ∀ item ∈ items, own item.2
  free : ∀ k ∈ items.map Prod.fst, ∀ v, x.store k = some v → own v

/-- The owner has no value in the store under another key. -/
def StoreFresh (own : V → Prop) (items : List (K × V)) (x : Indexed K V) : Prop :=
  ∀ k v, x.store k = some v → own v → k ∈ items.map Prod.fst

/-- The index lists no other key. -/
def IndexFresh (items : List (K × V)) (x : Indexed K V) : Prop :=
  ∀ k ∈ x.index, k ∈ items.map Prod.fst

/-- A key that is skipped is in the index already. -/
def SkipsIndexed (same : V → V → Bool) (items : List (K × V)) (x : Indexed K V) : Prop :=
  ∀ item ∈ items, x.skips same item = true → item.1 ∈ x.index

variable {own : V → Prop} {same : V → V → Bool} {items : List (K × V)} {x : Indexed K V}

theorem store_putAll_item (hx : Exclusive own items x)
    (hsame : ∀ v w, own v → own w → same v w = true → v = w) {item : K × V} (h : item ∈ items) :
    (x.putAll same items).store item.1 = some item.2 := by
  rw [store_putAll_of_mem hx.nodup h]
  by_cases hskip : x.skips same item = true
  · rw [if_pos hskip]
    obtain ⟨v, hv, heq⟩ := (Option.any_eq_true _ _).mp hskip
    rw [hv, hsame v item.2 (hx.free _ (List.mem_map_of_mem h) v hv) (hx.owned item h) heq]
  · rw [if_neg hskip]

theorem putAll_isSnapshot_iff (hx : Exclusive own items x)
    (hsame : ∀ v w, own v → own w → same v w = true → v = w) :
    IsSnapshot own items x (x.putAll same items) ↔
      IndexFresh items x ∧ StoreFresh own items x ∧ SkipsIndexed same items x := by
  constructor
  · intro h
    refine ⟨fun k hk => ?_, fun k v hv hown => ?_, fun item hitem hskip => ?_⟩
    · exact (h.index k).mp ((mem_index_putAll hx.nodup).mpr (.inl hk))
    · by_contra hk
      exact hk (h.only k v ((store_putAll_of_notMem hk).trans hv) hown)
    · have hmem := (h.index item.1).mpr (List.mem_map_of_mem hitem)
      rcases (mem_index_putAll hx.nodup).mp hmem with hmem | ⟨item', hitem', heq, hskip'⟩
      · exact hmem
      · -- keys are distinct, so the item written under this key is the skipped one
        rw [List.inj_on_of_nodup_map hx.nodup hitem hitem' heq, hskip'] at hskip
        exact absurd hskip Bool.false_ne_true
  · rintro ⟨hindex, hstore, hskips⟩
    refine ⟨fun k => ⟨fun hk => ?_, fun hk => ?_⟩, fun item h => store_putAll_item hx hsame h,
      fun k v hv hown => ?_, fun k v hown => ?_⟩
    · rcases (mem_index_putAll hx.nodup).mp hk with hk | ⟨item, hitem, rfl, -⟩
      · exact hindex k hk
      · exact List.mem_map_of_mem hitem
    · obtain ⟨item, hitem, rfl⟩ := List.mem_map.mp hk
      refine (mem_index_putAll hx.nodup).mpr ?_
      by_cases hskip : x.skips same item = true
      · exact .inl (hskips item hitem hskip)
      · exact .inr ⟨item, hitem, rfl, Bool.eq_false_iff.mpr hskip⟩
    · by_contra hk
      rw [store_putAll_of_notMem hk] at hv
      exact hk (hstore k v hv hown)
    · by_cases hk : k ∈ items.map Prod.fst
      · obtain ⟨item, hitem, rfl⟩ := List.mem_map.mp hk
        rw [store_putAll_item hx hsame hitem]
        refine iff_of_false (fun heq => hown ?_) fun hv => hown (hx.free _ hk v hv)
        exact Option.some.inj heq ▸ hx.owned item hitem
      · rw [store_putAll_of_notMem hk]

theorem putAll_never_isSnapshot_iff (hx : Exclusive own items x) :
    IsSnapshot own items x (x.putAll never items) ↔ IndexFresh items x ∧ StoreFresh own items x := by
  have hsame : ∀ v w : V, own v → own w → never v w = true → v = w :=
    fun _ _ _ _ h => absurd h Bool.false_ne_true
  rw [putAll_isSnapshot_iff hx hsame]
  refine and_congr_right fun _ => and_iff_left fun item _ hskip => ?_
  rw [skips_never] at hskip
  exact absurd hskip Bool.false_ne_true

theorem clearIndex_putAll_isSnapshot_iff (hx : Exclusive own items x) :
    IsSnapshot own items x (x.clearIndex.putAll never items) ↔ StoreFresh own items x := by
  have hclear : IsSnapshot own items x (x.clearIndex.putAll never items) ↔
      IsSnapshot own items x.clearIndex (x.clearIndex.putAll never items) :=
    ⟨fun h => ⟨h.index, h.read, h.only, h.others⟩, fun h => ⟨h.index, h.read, h.only, h.others⟩⟩
  have hcx : Exclusive own items x.clearIndex := ⟨hx.nodup, hx.owned, hx.free⟩
  rw [hclear, putAll_never_isSnapshot_iff hcx]
  exact and_iff_right fun k hk => absurd hk (Finset.notMem_empty k)

theorem store_dropStale_of_mem {k : K} (hk : k ∈ items.map Prod.fst) :
    (x.dropStale (items.map Prod.fst)).store k = x.store k := by
  refine if_neg fun hmem => ?_
  exact (Finset.mem_filter.mp hmem).2 hk

/-- What the index lists wrongly belongs to no one else. -/
def StaleOwn (own : V → Prop) (items : List (K × V)) (x : Indexed K V) : Prop :=
  ∀ k ∈ x.index, k ∉ items.map Prod.fst → ∀ v, x.store k = some v → own v

/-- Every value of the owner is an item or listed in the index. -/
def StoreListed (own : V → Prop) (items : List (K × V)) (x : Indexed K V) : Prop :=
  ∀ k v, x.store k = some v → own v → k ∈ items.map Prod.fst ∨ k ∈ x.index

section Empty
omit [DecidableEq K]

theorem exclusive_nil : Exclusive own ([] : List (K × V)) x := ⟨List.nodup_nil, nofun, nofun⟩

theorem storeFresh_empty : StoreFresh own items ⟨∅, fun _ => none⟩ := nofun

theorem indexFresh_empty : IndexFresh items (⟨∅, fun _ => none⟩ : Indexed K V) := nofun

theorem skipsIndexed_empty : SkipsIndexed same items ⟨∅, fun _ => none⟩ := nofun

theorem staleOwn_empty : StaleOwn own items ⟨∅, fun _ => none⟩ := nofun

theorem storeListed_empty : StoreListed own items ⟨∅, fun _ => none⟩ := nofun

end Empty

/-! What a snapshot from nothing leaves for the next one. -/

section Again
variable {first : List (K × V)} (h : IsSnapshot own first ⟨∅, fun _ => none⟩ x)
include h
omit [DecidableEq K]

theorem IsSnapshot.mem_of_store {k : K} {v : V} (hk : x.store k = some v) : (k, v) ∈ first := by
  by_cases hv : own v
  · obtain ⟨item, hitem, rfl⟩ := List.mem_map.mp (h.only k v hk hv)
    have hsame : item.2 = v := Option.some.inj ((h.read item hitem).symm.trans hk)
    exact hsame ▸ hitem
  · cases (h.others k v hv).mp hk

theorem IsSnapshot.mem_index {k : K} {v : V} (hk : x.store k = some v) : k ∈ x.index :=
  (h.index k).mpr (List.mem_map_of_mem (h.mem_of_store hk))

theorem IsSnapshot.indexFresh (hkeys : first.map Prod.fst ⊆ items.map Prod.fst) : IndexFresh items x :=
  fun k hk => hkeys ((h.index k).mp hk)

theorem IsSnapshot.storeFresh (hkeys : first.map Prod.fst ⊆ items.map Prod.fst) : StoreFresh own items x :=
  fun _ _ hk _ => hkeys (List.mem_map_of_mem (h.mem_of_store hk))

theorem IsSnapshot.storeListed : StoreListed own items x := fun _ _ hk _ => .inr (h.mem_index hk)

theorem IsSnapshot.skipsIndexed : SkipsIndexed same items x := by
  intro item _ hskips
  cases hstored : x.store item.1 with
  | none => simp [skips, hstored] at hskips
  | some v => exact h.mem_index hstored

variable {y z : Indexed K V} (hfirst : Exclusive own first y)
include hfirst

theorem IsSnapshot.staleOwn : StaleOwn own items x := fun _ _ _ _ hk => hfirst.owned _ (h.mem_of_store hk)

theorem IsSnapshot.exclusive (hitems : Exclusive own items z) : Exclusive own items x :=
  ⟨hitems.nodup, hitems.owned, fun _ _ _ hk => hfirst.owned _ (h.mem_of_store hk)⟩

end Again

theorem dropStale_putAll_isSnapshot_iff (hx : Exclusive own items x)
    (hsame : ∀ v w, own v → own w → same v w = true → v = w) :
    IsSnapshot own items x ((x.dropStale (items.map Prod.fst)).putAll same items) ↔
      StoreListed own items x ∧ SkipsIndexed same items x ∧ StaleOwn own items x := by
  set y := x.dropStale (items.map Prod.fst) with hy
  have hindex : ∀ k, k ∈ y.index ↔ k ∈ x.index ∧ k ∈ items.map Prod.fst := by
    intro k
    show k ∈ x.index \ x.index.filter (· ∉ items.map Prod.fst) ↔ _
    rw [Finset.mem_sdiff, Finset.mem_filter]
    tauto
  have hstore : ∀ k v, y.store k = some v ↔
      x.store k = some v ∧ (k ∈ x.index → k ∈ items.map Prod.fst) := by
    intro k v
    show (if k ∈ x.index.filter (· ∉ items.map Prod.fst) then none else x.store k) = some v ↔ _
    rw [Option.ite_none_left_eq_some, Finset.mem_filter]
    tauto
  have hskips : ∀ item ∈ items, y.skips same item = x.skips same item := by
    intro item hitem
    unfold skips
    rw [store_dropStale_of_mem (List.mem_map_of_mem hitem)]
  have hyx : Exclusive own items y :=
    ⟨hx.nodup, hx.owned, fun k hk v hv => hx.free k hk v ((hstore k v).mp hv).1⟩
  have hsnapshot : IsSnapshot own items x (y.putAll same items) ↔
      IsSnapshot own items y (y.putAll same items) ∧ StaleOwn own items x := by
    constructor
    · intro h
      have hstale : StaleOwn own items x := by
        intro k hk hnot v hv
        by_contra hown
        have hafter := (h.others k v hown).mpr hv
        rw [store_putAll_of_notMem hnot] at hafter
        exact hnot (((hstore k v).mp hafter).2 hk)
      refine ⟨⟨h.index, h.read, h.only, fun k v hown => (h.others k v hown).trans ?_⟩, hstale⟩
      rw [hstore]
      exact ⟨fun hv => ⟨hv, fun hk => by_contra fun hnot => hown (hstale k hk hnot v hv)⟩, And.left⟩
    · rintro ⟨h, hstale⟩
      refine ⟨h.index, h.read, h.only, fun k v hown => (h.others k v hown).trans ?_⟩
      rw [hstore]
      exact ⟨And.left, fun hv => ⟨hv, fun hk => by_contra fun hnot => hown (hstale k hk hnot v hv)⟩⟩
  rw [hsnapshot, putAll_isSnapshot_iff hyx hsame]
  constructor
  · rintro ⟨⟨-, hfresh, hskipped⟩, hstale⟩
    refine ⟨fun k v hv hown => ?_, fun item hitem hskip => ?_, hstale⟩
    · by_cases hk : k ∈ x.index
      · exact .inr hk
      · exact .inl (hfresh k v ((hstore k v).mpr ⟨hv, fun hk' => absurd hk' hk⟩) hown)
    · exact ((hindex _).mp (hskipped item hitem ((hskips item hitem).trans hskip))).1
  · rintro ⟨hlisted, hskipped, hstale⟩
    refine ⟨⟨fun k hk => ((hindex k).mp hk).2, fun k v hv hown => ?_, fun item hitem hskip => ?_⟩,
      hstale⟩
    · obtain ⟨hv, hk⟩ := (hstore k v).mp hv
      exact (hlisted k v hv hown).elim id hk
    · exact (hindex _).mpr ⟨hskipped item hitem ((hskips item hitem).symm.trans hskip),
        List.mem_map_of_mem hitem⟩

end Indexed

end Tulpje.Lib
