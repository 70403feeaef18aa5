import Mathlib.Data.List.Induction
import Mathlib.Data.List.Nodup

/-!
# Counting with limited counters

A list of entries counts how often each key occurs in another list: an element whose key has an entry raises the
counter of that entry, any other element gets an entry of its own. Counters can be raised up to a limit. Counting
returns as long as no key occurs more often (`countAll_of_le`), and else it does not (`countAll_of_gt`).
-/

namespace Tulpje.Lib.Counting

variable {α κ ν : Type*} [DecidableEq κ] (key : α → κ) (one : ν) (next : ν → Option ν)

def get (counts : List (α × ν)) (k : κ) : Option ν :=
  (counts.find? fun entry => key entry.1 = k).map Prod.snd

def raise (counts : List (α × ν)) (k : κ) (count : ν) : List (α × ν) :=
  counts.map fun entry => if key entry.1 = k then (entry.1, count) else entry

def bump (counts : List (α × ν)) (a : α) : Option (List (α × ν)) :=
  match get key counts (key a) with
  | some count => (next count).map (raise key counts (key a))
  | none => some (counts ++ [(a, one)])

def countAll (l : List α) : Option (List (α × ν)) := l.foldlM (bump key one next) []

/-- Counters stand for the numbers from one up to a limit. -/
structure Limited (value : ν → ℕ) (limit : ℕ) : Prop where
  one : value one = 1
  pos : 0 < limit
  raised : ∀ v, 0 < value v → value v < limit → ∃ w, next v = some w ∧ value w = value v + 1
  full : ∀ v, limit ≤ value v → next v = none

/-- Each key that occurs has one entry, with an element of this key and the number of times it occurs. -/
structure Counts (value : ν → ℕ) (l : List α) (counts : List (α × ν)) : Prop where
  nodup : (counts.map fun entry => key entry.1).Nodup
  element : ∀ entry ∈ counts, entry.1 ∈ l
  exists_entry : ∀ a ∈ l, ∃ entry ∈ counts, key entry.1 = key a
  value : ∀ entry ∈ counts, value entry.2 = (l.map key).count (key entry.1)

variable {key one next} {value : ν → ℕ} {limit : ℕ} {l : List α} {counts : List (α × ν)}

theorem Counts.mem (h : Counts key value l counts) (k : κ) :
    k ∈ counts.map (fun entry => key entry.1) ↔ k ∈ l.map key := by
  constructor
  · intro hk
    obtain ⟨entry, hentry, rfl⟩ := List.mem_map.mp hk
    exact List.mem_map_of_mem (h.element entry hentry)
  · intro hk
    obtain ⟨a, ha, rfl⟩ := List.mem_map.mp hk
    obtain ⟨entry, hentry, heq⟩ := h.exists_entry a ha
    exact List.mem_map.mpr ⟨entry, hentry, heq⟩

theorem Counts.get_eq_none (h : Counts key value l counts) {k : κ} (hk : k ∉ l.map key) : get key counts k = none := by
  rw [get, Option.map_eq_none_iff, List.find?_eq_none]
  intro entry hentry heq
  exact hk ((h.mem k).mp (List.mem_map.mpr ⟨entry, hentry, of_decide_eq_true heq⟩))

theorem Counts.exists_get (h : Counts key value l counts) {k : κ} (hk : k ∈ l.map key) :
    ∃ count, get key counts k = some count ∧ value count = (l.map key).count k := by
  obtain ⟨entry, hentry, rfl⟩ := List.mem_map.mp ((h.mem k).mpr hk)
  cases hfind : counts.find? fun other => key other.1 = key entry.1 with
  | none => exact absurd (decide_eq_true rfl) (List.find?_eq_none.mp hfind entry hentry)
  | some found =>
    have hkey : key found.1 = key entry.1 := by simpa using List.find?_some hfind
    refine ⟨found.2, by rw [get, hfind, Option.map_some], ?_⟩
    rw [h.value found (List.mem_of_find?_eq_some hfind), hkey]

theorem keys_raise (counts : List (α × ν)) (k : κ) (count : ν) :
    (raise key counts k count).map (fun entry => key entry.1) = counts.map fun entry => key entry.1 := by
  rw [raise, List.map_map]
  refine List.map_congr_left fun entry _ => ?_
  dsimp only [Function.comp_apply]
  split <;> rfl

theorem Counts.raise (h : Counts key value l counts) {a : α} (ha : key a ∈ l.map key) {count : ν}
    (hcount : value count = (l.map key).count (key a) + 1) :
    Counts key value (l ++ [a]) (raise key counts (key a) count) where
  nodup := by
    rw [keys_raise]
    exact h.nodup
  element entry hentry := by
    obtain ⟨old, hold, rfl⟩ := List.mem_map.mp hentry
    split <;> exact List.mem_append_left _ (h.element old hold)
  exists_entry b hb := by
    have hkey : key b ∈ (Counting.raise key counts (key a) count).map fun entry => key entry.1 := by
      rw [keys_raise, h.mem]
      rcases List.mem_append.mp hb with hb | hb
      · exact List.mem_map_of_mem hb
      · rwa [List.mem_singleton.mp hb]
    exact List.mem_map.mp hkey
  value entry hentry := by
    obtain ⟨old, hold, rfl⟩ := List.mem_map.mp hentry
    rw [List.map_append, List.count_append, List.map_singleton, List.count_singleton]
    split
    next hkey => simp [hcount, hkey]
    next hkey => simp [h.value old hold, Ne.symm hkey]

theorem Counts.append (h : Counts key value l counts) {a : α} (ha : key a ∉ l.map key) (hone : value one = 1) :
    Counts key value (l ++ [a]) (counts ++ [(a, one)]) where
  nodup := by
    rw [List.map_append, List.map_singleton]
    exact List.nodup_append.mpr ⟨h.nodup, List.nodup_singleton _, fun k hk k' hk' heq =>
      ha ((h.mem _).mp (List.mem_singleton.mp hk' ▸ heq ▸ hk))⟩
  element entry hentry := by
    rcases List.mem_append.mp hentry with hentry | hentry
    · exact List.mem_append_left _ (h.element entry hentry)
    · rw [List.mem_singleton.mp hentry]
      exact List.mem_append_right _ (List.mem_singleton_self a)
  exists_entry b hb := by
    rcases List.mem_append.mp hb with hb | hb
    · obtain ⟨entry, hentry, heq⟩ := h.exists_entry b hb
      exact ⟨entry, List.mem_append_left _ hentry, heq⟩
    · rw [List.mem_singleton.mp hb]
      exact ⟨(a, one), List.mem_append_right _ (List.mem_singleton_self _), rfl⟩
  value entry hentry := by
    rw [List.map_append, List.count_append, List.map_singleton, List.count_singleton]
    rcases List.mem_append.mp hentry with hentry | hentry
    · have hne : key a ≠ key entry.1 := fun heq =>
        ha (heq ▸ (h.mem _).mp (List.mem_map_of_mem hentry))
      simp [h.value entry hentry, hne]
    · rw [List.mem_singleton.mp hentry]
      simp [hone, List.count_eq_zero_of_not_mem ha]

section Limited
variable (hlimited : Limited one next value limit)

include hlimited

theorem Counts.bump_of_lt (h : Counts key value l counts) {a : α} (ha : (l.map key).count (key a) < limit) :
    ∃ counts', bump key one next counts a = some counts' ∧ Counts key value (l ++ [a]) counts' := by
  unfold bump
  by_cases hmem : key a ∈ l.map key
  · obtain ⟨count, hget, hvalue⟩ := h.exists_get hmem
    have hpos : 0 < value count := hvalue ▸ List.count_pos_iff.mpr hmem
    obtain ⟨count', hnext, hvalue'⟩ := hlimited.raised count hpos (hvalue ▸ ha)
    rw [hget]
    dsimp only
    rw [hnext, Option.map_some]
    exact ⟨_, rfl, h.raise hmem (by rw [hvalue', hvalue])⟩
  · rw [h.get_eq_none hmem]
    exact ⟨_, rfl, h.append hmem hlimited.one⟩

theorem Counts.bump_of_le (h : Counts key value l counts) {a : α} (ha : limit ≤ (l.map key).count (key a)) :
    bump key one next counts a = none := by
  have hmem : key a ∈ l.map key := List.count_pos_iff.mp (Nat.lt_of_lt_of_le hlimited.pos ha)
  obtain ⟨count, hget, hvalue⟩ := h.exists_get hmem
  rw [bump, hget]
  dsimp only
  rw [hlimited.full count (hvalue ▸ ha), Option.map_none]

theorem countAll_of_le (l : List α) (hl : ∀ k, (l.map key).count k ≤ limit) :
    ∃ counts, countAll key one next l = some counts ∧ Counts key value l counts := by
  induction l using List.reverseRecOn with
  | nil => exact ⟨[], rfl, List.nodup_nil, nofun, nofun, nofun⟩
  | append_singleton l a ih =>
    simp only [List.map_append, List.map_singleton, List.count_append, List.count_singleton] at hl
    obtain ⟨counts, hcounts, h⟩ := ih fun k => Nat.le_trans (Nat.le_add_right _ _) (hl k)
    have ha := hl (key a)
    rw [beq_self_eq_true, if_pos rfl] at ha
    obtain ⟨counts', hbump, h'⟩ := h.bump_of_lt hlimited ha
    refine ⟨counts', ?_, h'⟩
    rw [countAll, List.foldlM_append, ← countAll, hcounts]
    simp [hbump]

theorem countAll_of_gt {l : List α} {k : κ} (hk : limit < (l.map key).count k) : countAll key one next l = none := by
  induction l using List.reverseRecOn generalizing k with
  | nil => simp at hk
  | append_singleton l a ih =>
    rw [countAll, List.foldlM_append, ← countAll]
    by_cases hl : ∀ k, (l.map key).count k ≤ limit
    · obtain ⟨counts, hcounts, h⟩ := countAll_of_le hlimited l hl
      -- the last element is the one that exceeds the limit
      have hlast : limit ≤ (l.map key).count (key a) := by
        have hold := hl k
        rw [List.map_append, List.count_append, List.map_singleton, List.count_singleton] at hk
        by_cases heq : key a = k
        · rw [heq, beq_self_eq_true, if_pos rfl] at hk
          rw [heq]
          omega
        · rw [beq_false_of_ne heq] at hk
          simp at hk
          omega
      rw [hcounts]
      simp [h.bump_of_le hlimited hlast]
    · simp only [not_forall, Nat.not_le] at hl
      obtain ⟨k', hk'⟩ := hl
      rw [ih hk']
      rfl

end Limited

/-- The element of an entry is the first one with its key, and each element has an entry. -/
theorem first_of_countAll {l : List α} {counts : List (α × ν)} (h : countAll key one next l = some counts) :
    (∀ entry ∈ counts, l.find? (fun a => key a = key entry.1) = some entry.1) ∧
      ∀ a ∈ l, ∃ entry ∈ counts, key entry.1 = key a := by
  induction l using List.reverseRecOn generalizing counts with
  | nil =>
    obtain rfl : [] = counts := Option.some.inj h
    exact ⟨nofun, nofun⟩
  | append_singleton l a ih =>
    rw [countAll, List.foldlM_append, ← countAll] at h
    obtain ⟨before, hbefore, hlast⟩ := Option.bind_eq_some_iff.mp h
    obtain ⟨hfirst, hentry⟩ := ih hbefore
    obtain ⟨after, hbump, hafter⟩ := Option.bind_eq_some_iff.mp hlast
    obtain rfl : after = counts := Option.some.inj hafter
    have hold : ∀ entry ∈ before, (l ++ [a]).find? (fun b => key b = key entry.1) = some entry.1 := fun entry hmem => by
      rw [List.find?_append, hfirst entry hmem, Option.some_or]
    unfold bump at hbump
    cases hget : get key before (key a) with
    | some count =>
      rw [hget] at hbump
      obtain ⟨count', -, rfl⟩ := Option.map_eq_some_iff.mp hbump
      have hraised : ∀ entry ∈ before, ∃ entry' ∈ raise key before (key a) count', entry'.1 = entry.1 :=
        fun entry hmem => ⟨_, List.mem_map_of_mem hmem, by split <;> rfl⟩
      refine ⟨fun entry hmem => ?_, fun b hb => ?_⟩
      · obtain ⟨old, hmem', rfl⟩ := List.mem_map.mp hmem
        have hsame := hold old hmem'
        split <;> exact hsame
      · obtain ⟨entry, hmem, hkey⟩ : ∃ entry ∈ before, key entry.1 = key b := by
          rcases List.mem_append.mp hb with hb | hb
          · exact hentry b hb
          · obtain ⟨found, hfound, -⟩ := Option.map_eq_some_iff.mp hget
            have hkey := List.find?_some hfound
            rw [List.mem_singleton.mp hb]
            exact ⟨found, List.mem_of_find?_eq_some hfound, of_decide_eq_true hkey⟩
        obtain ⟨entry', hmem', heq⟩ := hraised entry hmem
        exact ⟨entry', hmem', heq ▸ hkey⟩
    | none =>
      rw [hget] at hbump
      obtain rfl := Option.some.inj hbump
      have hnew : ∀ b ∈ l, key b ≠ key a := fun b hb heq => by
        obtain ⟨entry, hmem, hkey⟩ := hentry b hb
        have hnone := List.find?_eq_none.mp (Option.map_eq_none_iff.mp hget) entry hmem
        exact hnone (decide_eq_true (hkey.trans heq))
      refine ⟨fun entry hmem => ?_, fun b hb => ?_⟩
      · rcases List.mem_append.mp hmem with hmem | hmem
        · exact hold entry hmem
        · rw [List.mem_singleton.mp hmem, List.find?_append,
            List.find?_eq_none.mpr fun b hb => by simpa using hnew b hb]
          simp
      · rcases List.mem_append.mp hb with hb | hb
        · obtain ⟨entry, hmem, hkey⟩ := hentry b hb
          exact ⟨entry, List.mem_append_left _ hmem, hkey⟩
        · exact ⟨(a, one), List.mem_append_right _ (List.mem_singleton_self _), (List.mem_singleton.mp hb) ▸ rfl⟩

/-- In whatever order the entries come, the elements of those with a key are the first one of the list with it, if
any. -/
theorem filter_of_countAll {l : List α} {counts entries : List (α × ν)} (h : countAll key one next l = some counts)
    (hnodup : (counts.map fun entry => key entry.1).Nodup) (hperm : entries.Perm counts) (k : κ) :
    (entries.map Prod.fst).filter (fun a => key a = k) = (l.find? fun a => key a = k).toList := by
  obtain ⟨hfirst, hentry⟩ := first_of_countAll h
  cases hfind : l.find? fun a => key a = k with
  | none =>
    refine List.filter_eq_nil_iff.mpr fun a ha hk => ?_
    obtain ⟨entry, hmem, rfl⟩ := List.mem_map.mp ha
    obtain rfl : key entry.1 = k := of_decide_eq_true hk
    rw [hfirst entry (hperm.mem_iff.mp hmem)] at hfind
    cases hfind
  | some a =>
    have hk := List.find?_some hfind
    obtain rfl : key a = k := of_decide_eq_true hk
    obtain ⟨entry, hmem, hkey⟩ := hentry a (List.mem_of_find?_eq_some hfind)
    obtain rfl : entry.1 = a := by
      have heq := hfirst entry hmem
      rw [hkey, hfind] at heq
      exact (Option.some.inj heq).symm
    have hnodup : ((entries.map Prod.fst).map key).Nodup := by
      rw [List.map_map]
      exact ((hperm.map _).nodup_iff).mpr hnodup
    refine List.perm_singleton.mp ((List.perm_ext_iff_of_nodup ?_ (List.nodup_singleton _)).mpr fun b => ?_)
    · exact (hnodup.of_map _).filter _
    · rw [List.mem_filter, decide_eq_true_iff, List.mem_singleton]
      constructor
      · rintro ⟨hb, hsame⟩
        exact List.inj_on_of_nodup_map hnodup hb (List.mem_map_of_mem (hperm.mem_iff.mpr hmem)) hsame
      · rintro rfl
        exact ⟨List.mem_map_of_mem (hperm.mem_iff.mpr hmem), rfl⟩

end Tulpje.Lib.Counting
