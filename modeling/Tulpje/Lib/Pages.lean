import Mathlib.Data.List.Sort
import Tulpje.Lib.Lists

/-!
# Pages of sorted rows

Each page is cut out of the result of a query of its own, and a query may put rows that tie in any order. Browsing shows
every row once, whatever these orders are, exactly if no rows that tie lie on both sides of the end of a page:
`browse_perm_iff`.
-/

namespace Tulpje.Lib.Pages

variable {α : Type*} {le : α → α → Prop} {rows result : List α} {size pages : ℕ}

/-- The rows, sorted. -/
structure Sorted (le : α → α → Prop) (rows result : List α) : Prop where
  perm : result.Perm rows
  sorted : result.Pairwise le

def page (size i : ℕ) (result : List α) : List α := (result.drop (i * size)).take size

/-- One page after another, each of its own query. -/
def browse (size pages : ℕ) (query : ℕ → List α) : List α :=
  (List.range pages).flatMap fun i => page size i (query i)

section
variable [DecidableRel le]

/-- How many rows come before `a` in every order. -/
def before (le : α → α → Prop) [DecidableRel le] (rows : List α) (a : α) : ℕ := rows.countP fun b => ¬ le a b

/-- How many rows come before or tie with `a`. -/
def upTo (le : α → α → Prop) [DecidableRel le] (rows : List α) (a : α) : ℕ := rows.countP fun b => le b a

/-- The first and the last of the rows that tie are on one page. -/
def Aligned (le : α → α → Prop) [DecidableRel le] (size : ℕ) (rows : List α) : Prop :=
  ∀ a ∈ rows, before le rows a / size = (upTo le rows a - 1) / size

instance : Decidable (Aligned le size rows) := List.decidableBAll ..

end

/-! ### What is on a page -/

theorem mem_page_iff (hsize : 0 < size) {i : ℕ} {a : α} :
    a ∈ page size i result ↔ ∃ x, result[x]? = some a ∧ x / size = i := by
  rw [page, List.mem_iff_getElem?]
  constructor
  · rintro ⟨x, hx⟩
    rw [List.getElem?_take] at hx
    split at hx
    next hlt =>
      rw [List.getElem?_drop] at hx
      refine ⟨_, hx, ?_⟩
      rw [Nat.add_comm, Nat.add_mul_div_right _ _ hsize, Nat.div_eq_of_lt hlt, Nat.zero_add]
    next => cases hx
  · rintro ⟨x, hx, rfl⟩
    refine ⟨x % size, ?_⟩
    rw [List.getElem?_take, if_pos (Nat.mod_lt x hsize), List.getElem?_drop, Nat.mul_comm, Nat.div_add_mod]
    exact hx

theorem mem_browse_iff {query : ℕ → List α} {a : α} :
    a ∈ browse size pages query ↔ ∃ i < pages, a ∈ page size i (query i) := by
  simp only [browse, List.mem_flatMap, List.mem_range]

theorem nodup_page (hresult : result.Nodup) (i : ℕ) : (page size i result).Nodup :=
  (hresult.sublist (List.drop_sublist ..)).sublist (List.take_sublist ..)

/-! ### Where a row is -/

theorem Sorted.split (h : Sorted le rows result) {x : ℕ} {a : α} (hx : result[x]? = some a) :
    ∃ pre post, result = pre ++ a :: post ∧ pre.length = x ∧ (∀ b ∈ pre, le b a) ∧ ∀ b ∈ post, le a b := by
  obtain ⟨hlt, ha⟩ := List.getElem?_eq_some_iff.mp hx
  have hsplit : result = result.take x ++ a :: result.drop (x + 1) := by
    rw [← ha, List.getElem_cons_drop, List.take_append_drop]
  have hsorted := h.sorted
  rw [hsplit, List.pairwise_append, List.pairwise_cons] at hsorted
  obtain ⟨-, ⟨hafter, -⟩, hbefore⟩ := hsorted
  exact ⟨_, _, hsplit, List.length_take_of_le (Nat.le_of_lt hlt), fun b hb => hbefore b hb a List.mem_cons_self,
    hafter⟩

section Decidable
variable [DecidableRel le]

theorem Sorted.before_eq (h : Sorted le rows result) (a : α) : before le rows a = before le result a :=
  (h.perm.countP_eq _).symm

theorem Sorted.upTo_eq (h : Sorted le rows result) (a : α) : upTo le rows a = upTo le result a :=
  (h.perm.countP_eq _).symm

/-- A row is after all that come before it in every order, and before all that come after it. -/
theorem Sorted.position [Std.Refl le] (h : Sorted le rows result) {x : ℕ} {a : α} (hx : result[x]? = some a) :
    before le rows a ≤ x ∧ x < upTo le rows a := by
  have hrefl : le a a := Std.Refl.refl a
  rw [h.before_eq, h.upTo_eq]
  obtain ⟨pre, post, rfl, rfl, hpre, hpost⟩ := h.split hx
  constructor
  · have hnone : (a :: post).countP (fun b => decide ¬ le a b) = 0 := by
      rw [List.countP_eq_zero, List.forall_mem_cons]
      exact ⟨by simp [hrefl], fun b hb => by simp [hpost b hb]⟩
    rw [before, List.countP_append, hnone, Nat.add_zero]
    exact List.countP_le_length
  · have hall : pre.countP (fun b => decide (le b a)) = pre.length :=
      List.countP_eq_length.mpr fun b hb => decide_eq_true (hpre b hb)
    rw [upTo, List.countP_append, hall, List.countP_cons_of_pos (by simp [hrefl])]
    omega

/-- Between these bounds are only rows that tie. -/
theorem Sorted.ties [Std.Refl le] [IsTrans α le] (h : Sorted le rows result) {x : ℕ} {a b : α}
    (hx : result[x]? = some b) (hbefore : before le rows a ≤ x) (hupTo : x < upTo le rows a) : le a b ∧ le b a := by
  rw [h.before_eq] at hbefore
  rw [h.upTo_eq] at hupTo
  obtain ⟨pre, post, rfl, rfl, hpre, hpost⟩ := h.split hx
  constructor
  · by_contra hab
    have hall : pre.countP (fun c => decide ¬ le a c) = pre.length :=
      List.countP_eq_length.mpr fun c hc => decide_eq_true fun hac => hab (IsTrans.trans _ _ _ hac (hpre c hc))
    rw [before, List.countP_append, hall, List.countP_cons_of_pos (by simp [hab])] at hbefore
    omega
  · by_contra hba
    have hnone : (b :: post).countP (fun c => decide (le c a)) = 0 := by
      rw [List.countP_eq_zero, List.forall_mem_cons]
      exact ⟨by simp [hba], fun c hc => by simpa using fun hca => hba (IsTrans.trans _ _ _ (hpost c hc) hca)⟩
    rw [upTo, List.countP_append, hnone, Nat.add_zero] at hupTo
    exact absurd hupTo (Nat.not_lt.mpr List.countP_le_length)

end Decidable

/-- Neighbours that tie may be swapped. -/
theorem Sorted.swap [IsTrans α le] {pre post : List α} {a b : α} (h : Sorted le rows (pre ++ a :: b :: post))
    (hba : le b a) : Sorted le rows (pre ++ b :: a :: post) where
  perm := ((List.Perm.swap a b post).append_left pre).trans h.perm
  sorted := by
    have hsorted := h.sorted
    simp only [List.pairwise_append, List.pairwise_cons, List.forall_mem_cons] at hsorted ⊢
    obtain ⟨hpre, ⟨⟨-, ha⟩, hb, hpost⟩, hcross⟩ := hsorted
    exact ⟨hpre, ⟨⟨hba, hb⟩, ha, hpost⟩, fun c hc => ⟨(hcross c hc).2.1, (hcross c hc).1, (hcross c hc).2.2⟩⟩

/-! ### Browsing -/

variable [DecidableRel le] [Std.Total le]

/-- If no tie is cut, every row has its page. -/
theorem mem_page_iff_of_aligned (haligned : Aligned le size rows) (hsize : 0 < size) (h : Sorted le rows result)
    {i : ℕ} {a : α} : a ∈ page size i result ↔ a ∈ rows ∧ before le rows a / size = i := by
  have hplace : ∀ {x}, result[x]? = some a → a ∈ rows ∧ before le rows a / size = x / size := by
    intro x hx
    have ha : a ∈ rows := h.perm.mem_iff.mp (List.mem_of_getElem? hx)
    obtain ⟨hlow, hhigh⟩ := h.position hx
    refine ⟨ha, Nat.le_antisymm (Nat.div_le_div_right hlow) ?_⟩
    rw [haligned a ha]
    exact Nat.div_le_div_right (Nat.le_sub_one_of_lt hhigh)
  rw [mem_page_iff hsize]
  constructor
  · rintro ⟨x, hx, rfl⟩
    exact hplace hx
  · rintro ⟨ha, rfl⟩
    obtain ⟨x, hx⟩ := List.mem_iff_getElem?.mp (h.perm.mem_iff.mpr ha)
    exact ⟨x, hx, (hplace hx).2.symm⟩

theorem browse_perm_of_aligned (haligned : Aligned le size rows) (hsize : 0 < size) (hrows : rows.Nodup)
    (hpages : rows.length ≤ pages * size) {query : ℕ → List α} (hquery : ∀ i, Sorted le rows (query i)) :
    (browse size pages query).Perm rows := by
  have hmem : ∀ i a, a ∈ page size i (query i) ↔ a ∈ rows ∧ before le rows a / size = i := fun i a =>
    mem_page_iff_of_aligned haligned hsize (hquery i)
  have hnodup : (browse size pages query).Nodup := by
    refine List.nodup_flatMap.mpr ⟨fun i _ => nodup_page ((hquery i).perm.nodup_iff.mpr hrows) i, ?_⟩
    refine List.nodup_range.imp fun hne a hi hj => hne ?_
    exact ((hmem _ a).mp hi).2.symm.trans ((hmem _ a).mp hj).2
  refine (List.perm_ext_iff_of_nodup hnodup hrows).mpr fun a => ?_
  rw [mem_browse_iff]
  constructor
  · rintro ⟨i, -, ha⟩
    exact ((hmem i a).mp ha).1
  · intro ha
    refine ⟨_, Nat.div_lt_of_lt_mul ?_, (hmem _ a).mpr ⟨ha, rfl⟩⟩
    obtain ⟨x, hx⟩ := List.mem_iff_getElem?.mp ((hquery 0).perm.mem_iff.mpr ha)
    obtain ⟨hlt, -⟩ := List.getElem?_eq_some_iff.mp hx
    have hlow := ((hquery 0).position hx).1
    rw [(hquery 0).perm.length_eq] at hlt
    rw [Nat.mul_comm]
    omega

/-- A tie that is cut has neighbours at the end of a page. -/
theorem Sorted.exists_cut [IsTrans α le] (h : Sorted le rows result) (haligned : ¬ Aligned le size rows)
    (hsize : 0 < size) :
    ∃ i pre a b post, result = pre ++ a :: b :: post ∧ le b a ∧ pre.length + 1 = (i + 1) * size := by
  simp only [Aligned, not_forall] at haligned
  obtain ⟨a, ha, hne⟩ := haligned
  obtain ⟨x, hx⟩ := List.mem_iff_getElem?.mp (h.perm.mem_iff.mpr ha)
  obtain ⟨hlow, hhigh⟩ := h.position hx
  have hupTo : upTo le rows a ≤ result.length := by
    rw [h.upTo_eq]
    exact List.countP_le_length
  have hdiv : before le rows a / size < (upTo le rows a - 1) / size :=
    Nat.lt_of_le_of_ne (Nat.div_le_div_right (by omega)) hne
  -- the last page of the tie starts inside the tie
  obtain ⟨i, hi⟩ : ∃ i, (upTo le rows a - 1) / size = i + 1 :=
    ⟨_, (Nat.succ_pred (Nat.ne_of_gt (Nat.zero_lt_of_lt hdiv))).symm⟩
  rw [hi, Nat.div_lt_iff_lt_mul hsize] at hdiv
  have hend : (i + 1) * size ≤ upTo le rows a - 1 := hi ▸ Nat.div_mul_le_self ..
  obtain ⟨start, hstart⟩ : ∃ start, start + 1 = (i + 1) * size := ⟨(i + 1) * size - 1, by omega⟩
  obtain ⟨b, hb⟩ : ∃ b, result[start]? = some b := ⟨_, List.getElem?_eq_getElem (by omega)⟩
  obtain ⟨c, hc⟩ : ∃ c, result[start + 1]? = some c := ⟨_, List.getElem?_eq_getElem (by omega)⟩
  have hab : le a b := (h.ties hb (by omega) (by omega)).1
  have hca : le c a := (h.ties hc (by omega) (by omega)).2
  obtain ⟨pre, post, rfl, rfl, -, -⟩ := h.split hb
  rw [List.getElem?_append_right (by omega)] at hc
  cases post with
  | nil => simp at hc
  | cons d post =>
    obtain rfl : d = c := by simpa using hc
    exact ⟨i, pre, b, d, post, rfl, IsTrans.trans _ _ _ hca hab, hstart⟩

/-- It lets a row appear on two pages. -/
theorem exists_not_perm_of_not_aligned [IsTrans α le] (haligned : ¬ Aligned le size rows) (hsize : 0 < size)
    (hrows : rows.Nodup) (hpages : rows.length ≤ pages * size) :
    ∃ query : ℕ → List α, (∀ i, Sorted le rows (query i)) ∧ ¬ (browse size pages query).Perm rows := by
  have hsorted : Sorted le rows (rows.insertionSort le) :=
    ⟨List.perm_insertionSort le rows, List.pairwise_insertionSort le rows⟩
  obtain ⟨i, pre, a, b, post, hsplit, hba, hlength⟩ := hsorted.exists_cut haligned hsize
  rw [hsplit] at hsorted
  have hswapped := hsorted.swap hba
  obtain ⟨query, hquery⟩ : ∃ query : ℕ → List α, ∀ j, query j =
    if j = i then pre ++ a :: b :: post else pre ++ b :: a :: post := ⟨_, fun _ => rfl⟩
  refine ⟨query, fun j => ?_, fun hperm => ?_⟩
  · rw [hquery]
    split
    · exact hsorted
    · exact hswapped
  · have hlast : a ∈ page size i (query i) := by
      rw [hquery, if_pos rfl, mem_page_iff hsize]
      refine ⟨pre.length, by simp, Nat.div_eq_of_lt_le ?_ (by omega)⟩
      rw [Nat.add_mul] at hlength
      omega
    have hfirst : a ∈ page size (i + 1) (query (i + 1)) := by
      rw [hquery, if_neg (by omega), mem_page_iff hsize]
      exact ⟨pre.length + 1, by simp, by rw [hlength, Nat.mul_div_cancel _ hsize]⟩
    have hpage : i + 1 < pages := by
      by_contra hge
      have hpages' : pages * size ≤ (i + 1) * size := Nat.mul_le_mul_right size (Nat.not_lt.mp hge)
      have hrows' := hsorted.perm.length_eq
      simp only [List.length_append, List.length_cons] at hrows'
      omega
    have hsame : i = i + 1 := eq_of_mem_of_nodup_flatMap (hperm.nodup_iff.mpr hrows)
      (List.mem_range.mpr (by omega)) (List.mem_range.mpr hpage) hlast hfirst
    omega

theorem browse_perm_iff [IsTrans α le] (hsize : 0 < size) (hrows : rows.Nodup) (hpages : rows.length ≤ pages * size) :
    (∀ query : ℕ → List α, (∀ i, Sorted le rows (query i)) → (browse size pages query).Perm rows) ↔
      Aligned le size rows := by
  constructor
  · intro h
    by_contra hnot
    obtain ⟨query, hquery, hperm⟩ := exists_not_perm_of_not_aligned hnot hsize hrows hpages
    exact hperm (h query hquery)
  · exact fun haligned query hquery => browse_perm_of_aligned haligned hsize hrows hpages hquery

end Tulpje.Lib.Pages
