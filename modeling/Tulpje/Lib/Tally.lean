import Mathlib.Data.Finset.Card
import Mathlib.Data.Finset.Filter
import Mathlib.Data.List.Nodup

/-!
# Tallies of a set of pairs

A set of pairs of a user and a key can be kept as a list with one entry for each key that occurs, which
counts the users of the key and says whether one distinguished user is among them. `Tallies` says that a
list is such a tally. A pair may only be added when it is not there and removed when it is, since the list
does not say which users there are.
-/

namespace Tulpje.Lib

variable {U K α : Type*} [DecidableEq U] [DecidableEq K] (key : α → K) (count : α → Nat) (flag : α → Bool)
  (who : U)

/-- The users of a key. -/
def usersOf (R : Finset (U × K)) (k : K) : Finset (U × K) := R.filter (·.2 = k)

structure Tallies (R : Finset (U × K)) (l : List α) : Prop where
  nodup : (l.map key).Nodup
  mem : ∀ k, k ∈ l.map key ↔ ∃ u, (u, k) ∈ R
  count : ∀ a ∈ l, count a = (usersOf R (key a)).card
  flag : ∀ a ∈ l, flag a = true ↔ (who, key a) ∈ R

section UsersOf
variable {R : Finset (U × K)} {u : U} {k k' : K}

omit [DecidableEq U] in
theorem mem_usersOf {p : U × K} : p ∈ usersOf R k ↔ p ∈ R ∧ p.2 = k := Finset.mem_filter

theorem usersOf_insert_self : usersOf (insert (u, k) R) k = insert (u, k) (usersOf R k) := by
  rw [usersOf, Finset.filter_insert, if_pos rfl]
  rfl

theorem usersOf_insert_of_ne (h : k' ≠ k) : usersOf (insert (u, k) R) k' = usersOf R k' := by
  rw [usersOf, Finset.filter_insert, if_neg (Ne.symm h)]
  rfl

theorem card_usersOf_insert (h : (u, k) ∉ R) :
    (usersOf (insert (u, k) R) k).card = (usersOf R k).card + 1 := by
  rw [usersOf_insert_self, Finset.card_insert_of_notMem fun hmem => h (mem_usersOf.mp hmem).1]

theorem usersOf_erase_of_ne (h : k' ≠ k) : usersOf (R.erase (u, k)) k' = usersOf R k' := by
  ext p
  rw [mem_usersOf, mem_usersOf, Finset.mem_erase]
  constructor
  · exact fun hp => ⟨hp.1.2, hp.2⟩
  · rintro ⟨hp, rfl⟩
    exact ⟨⟨fun heq => h (congrArg Prod.snd heq), hp⟩, rfl⟩

theorem card_usersOf_erase (h : (u, k) ∈ R) :
    (usersOf (R.erase (u, k)) k).card + 1 = (usersOf R k).card := by
  have hinsert := card_usersOf_insert (Finset.notMem_erase (u, k) R)
  rw [Finset.insert_erase h] at hinsert
  exact hinsert.symm

omit [DecidableEq U] in
theorem exists_of_card_usersOf (h : 0 < (usersOf R k).card) : ∃ u, (u, k) ∈ R := by
  obtain ⟨⟨u, k'⟩, hp⟩ := Finset.card_pos.mp h
  obtain ⟨hmem, rfl⟩ := mem_usersOf.mp hp
  exact ⟨u, hmem⟩

end UsersOf

variable {key count flag who} {R : Finset (U × K)} {l : List α} {u : U} {k : K}

omit [DecidableEq U] in
theorem tallies_nil : Tallies key count flag who ∅ ([] : List α) :=
  ⟨List.nodup_nil, fun k => by simp, nofun, nofun⟩

namespace Tallies

/-! ### Adding a pair -/

/-- The first user of a key gets a new entry. -/
theorem append (h : Tallies key count flag who R l) (hk : k ∉ l.map key) {a : α} (hkey : key a = k)
    (hcount : count a = 1) (hflag : flag a = true ↔ who = u) :
    Tallies key count flag who (insert (u, k) R) (l ++ [a]) := by
  have hnone : ∀ u', (u', k) ∉ R := fun u' hmem => hk ((h.mem k).mpr ⟨u', hmem⟩)
  have hne : ∀ b ∈ l, key b ≠ k := fun b hb heq => hk (heq ▸ List.mem_map_of_mem hb)
  subst hkey
  refine ⟨?_, fun k' => ?_, fun b hb => ?_, fun b hb => ?_⟩
  · rw [List.map_append, List.map_singleton, ← List.concat_eq_append]
    exact List.Nodup.concat hk h.nodup
  · rw [List.map_append, List.map_singleton, List.mem_append, List.mem_singleton, h.mem]
    constructor
    · rintro (⟨u', hmem⟩ | rfl)
      · exact ⟨u', Finset.mem_insert_of_mem hmem⟩
      · exact ⟨u, Finset.mem_insert_self ..⟩
    · rintro ⟨u', hmem⟩
      rcases Finset.mem_insert.mp hmem with heq | hmem
      · exact .inr (congrArg Prod.snd heq)
      · exact .inl ⟨u', hmem⟩
  · rcases List.mem_append.mp hb with hb | hb
    · rw [usersOf_insert_of_ne (hne b hb)]
      exact h.count b hb
    · obtain rfl := List.mem_singleton.mp hb
      have hempty : usersOf R (key b) = ∅ := by
        refine Finset.filter_eq_empty_iff.mpr ?_
        rintro ⟨u', k'⟩ hmem rfl
        exact hnone u' hmem
      rw [card_usersOf_insert (hnone u), hempty, hcount, Finset.card_empty]
  · rcases List.mem_append.mp hb with hb | hb
    · rw [h.flag b hb, Finset.mem_insert]
      exact (or_iff_right fun heq => hne b hb (congrArg Prod.snd heq)).symm
    · obtain rfl := List.mem_singleton.mp hb
      rw [hflag, Finset.mem_insert, or_iff_left (hnone who)]
      exact ⟨fun heq => heq ▸ rfl, fun heq => congrArg Prod.fst heq⟩

/-- The entries of one key changed, which keeps their keys. -/
theorem map_key_change {f : α → α} (hf : ∀ a, key (f a) = key a) :
    (l.map fun a => if key a = k then f a else a).map key = l.map key := by
  rw [List.map_map]
  refine List.map_congr_left fun a _ => ?_
  by_cases hk : key a = k
  · simp [hk, hf]
  · simp [hk]

/-- Another user of a key that has an entry. -/
theorem increase (h : Tallies key count flag who R l) (hk : k ∈ l.map key) (hu : (u, k) ∉ R)
    {f : α → α} (hf : ∀ a, key (f a) = key a)
    (hcount : ∀ a ∈ l, key a = k → count (f a) = count a + 1)
    (hflag : ∀ a ∈ l, key a = k → (flag (f a) = true ↔ flag a = true ∨ who = u)) :
    Tallies key count flag who (insert (u, k) R) (l.map fun a => if key a = k then f a else a) := by
  refine ⟨?_, fun k' => ?_, fun b hb => ?_, fun b hb => ?_⟩
  · rw [map_key_change hf]
    exact h.nodup
  · rw [map_key_change hf]
    by_cases hk' : k' = k
    · subst hk'
      exact iff_of_true hk ⟨u, Finset.mem_insert_self ..⟩
    · rw [h.mem]
      refine exists_congr fun u' => ?_
      rw [Finset.mem_insert]
      exact (or_iff_right fun heq => hk' (congrArg Prod.snd heq)).symm
  · obtain ⟨a, ha, rfl⟩ := List.mem_map.mp hb
    by_cases hak : key a = k
    · rw [if_pos hak, hf, hcount a ha hak, hak, card_usersOf_insert hu, h.count a ha, hak]
    · rw [if_neg hak, usersOf_insert_of_ne hak]
      exact h.count a ha
  · obtain ⟨a, ha, rfl⟩ := List.mem_map.mp hb
    by_cases hak : key a = k
    · rw [if_pos hak, hf, hflag a ha hak, h.flag a ha, hak, Finset.mem_insert, or_comm]
      exact or_congr_left ⟨fun heq => heq ▸ rfl, fun heq => congrArg Prod.fst heq⟩
    · rw [if_neg hak, h.flag a ha, Finset.mem_insert]
      exact (or_iff_right fun heq => hak (congrArg Prod.snd heq)).symm

/-! ### Removing pairs -/

/-- One of several users of a key. -/
theorem decrease (h : Tallies key count flag who R l) (hu : (u, k) ∈ R) {f : α → α}
    (hf : ∀ a, key (f a) = key a)
    (hcount : ∀ a ∈ l, key a = k → 1 < count a ∧ count (f a) + 1 = count a)
    (hflag : ∀ a ∈ l, key a = k → (flag (f a) = true ↔ flag a = true ∧ who ≠ u)) :
    Tallies key count flag who (R.erase (u, k)) (l.map fun a => if key a = k then f a else a) := by
  have hpair : ∀ {u' : U} {k' : K}, k' ≠ k → ((u', k') ∈ R.erase (u, k) ↔ (u', k') ∈ R) :=
    fun hk' => ⟨Finset.mem_of_mem_erase, Finset.mem_erase_of_ne_of_mem fun heq => hk' (congrArg Prod.snd heq)⟩
  refine ⟨?_, fun k' => ?_, fun b hb => ?_, fun b hb => ?_⟩
  · rw [map_key_change hf]
    exact h.nodup
  · rw [map_key_change hf]
    by_cases hk' : k' = k
    · subst hk'
      refine iff_of_true ((h.mem k').mpr ⟨u, hu⟩) ?_
      obtain ⟨a, ha, rfl⟩ := List.mem_map.mp ((h.mem k').mpr ⟨u, hu⟩)
      have hlt := (hcount a ha rfl).1
      rw [h.count a ha, ← card_usersOf_erase hu] at hlt
      exact exists_of_card_usersOf (Nat.lt_of_succ_lt_succ hlt)
    · rw [h.mem]
      exact exists_congr fun u' => (hpair hk').symm
  · obtain ⟨a, ha, rfl⟩ := List.mem_map.mp hb
    by_cases hak : key a = k
    · subst hak
      have hcard := card_usersOf_erase hu
      have hone := (hcount a ha rfl).2
      rw [h.count a ha] at hone
      rw [if_pos rfl, hf]
      omega
    · rw [if_neg hak, usersOf_erase_of_ne hak]
      exact h.count a ha
  · obtain ⟨a, ha, rfl⟩ := List.mem_map.mp hb
    by_cases hak : key a = k
    · subst hak
      rw [if_pos rfl, hf, hflag a ha rfl, h.flag a ha, Finset.mem_erase, and_comm]
      exact and_congr_left' (not_congr ⟨fun heq => heq ▸ rfl, fun heq => congrArg Prod.fst heq⟩)
    · rw [if_neg hak, h.flag a ha, hpair hak]

omit [DecidableEq U] in
/-- All users of a key. -/
theorem drop (h : Tallies key count flag who R l) (k : K) :
    Tallies key count flag who (R.filter (·.2 ≠ k)) (l.filter fun a => key a ≠ k) := by
  have hmem : ∀ a, a ∈ l.filter (fun a => key a ≠ k) ↔ a ∈ l ∧ key a ≠ k := by simp
  have hpair : ∀ {u' : U} {k' : K}, k' ≠ k → ((u', k') ∈ R.filter (·.2 ≠ k) ↔ (u', k') ∈ R) :=
    fun hk' => ⟨fun hp => (Finset.mem_filter.mp hp).1, fun hp => Finset.mem_filter.mpr ⟨hp, hk'⟩⟩
  refine ⟨?_, fun k' => ?_, fun a ha => ?_, fun a ha => ?_⟩
  · exact h.nodup.sublist (List.filter_sublist.map key)
  · constructor
    · intro hk'
      obtain ⟨a, ha, rfl⟩ := List.mem_map.mp hk'
      obtain ⟨ha, hne⟩ := (hmem a).mp ha
      obtain ⟨u', hu'⟩ := (h.mem (key a)).mp (List.mem_map_of_mem ha)
      exact ⟨u', (hpair hne).mpr hu'⟩
    · rintro ⟨u', hu'⟩
      obtain ⟨hu', hne⟩ := Finset.mem_filter.mp hu'
      obtain ⟨a, ha, rfl⟩ := List.mem_map.mp ((h.mem k').mpr ⟨u', hu'⟩)
      exact List.mem_map_of_mem ((hmem a).mpr ⟨ha, hne⟩)
  · obtain ⟨ha, hne⟩ := (hmem a).mp ha
    rw [h.count a ha, usersOf, usersOf, Finset.filter_filter]
    refine congrArg Finset.card (Finset.filter_congr fun p _ => ?_)
    exact ⟨fun hp => ⟨hp ▸ hne, hp⟩, And.right⟩
  · obtain ⟨ha, hne⟩ := (hmem a).mp ha
    rw [h.flag a ha, hpair hne]

/-- The last user of a key. -/
theorem drop_last (h : Tallies key count flag who R l) (hu : (u, k) ∈ R)
    (hcount : ∀ a ∈ l, key a = k → count a ≤ 1) :
    Tallies key count flag who (R.erase (u, k)) (l.filter fun a => key a ≠ k) := by
  have hsame : R.erase (u, k) = R.filter (·.2 ≠ k) := by
    obtain ⟨a, ha, rfl⟩ := List.mem_map.mp ((h.mem k).mpr ⟨u, hu⟩)
    have hle := hcount a ha rfl
    rw [h.count a ha] at hle
    ext p
    rw [Finset.mem_erase, Finset.mem_filter, and_comm]
    refine and_congr_right fun hp => ⟨fun hne heq => hne ?_, fun hne heq => hne (heq ▸ rfl)⟩
    exact Finset.card_le_one.mp hle _ (mem_usersOf.mpr ⟨hp, heq⟩) _ (mem_usersOf.mpr ⟨hu, rfl⟩)
  rw [hsame]
  exact h.drop k

end Tallies

end Tulpje.Lib
