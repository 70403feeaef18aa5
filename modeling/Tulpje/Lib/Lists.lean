import Mathlib.Data.List.Basic
import Mathlib.Data.List.Nodup
import Mathlib.Data.List.Pairwise
import Mathlib.Data.List.Perm.Basic
import Mathlib.Data.List.Perm.Subperm
import Mathlib.Data.Option.Basic

/-!
# Lists

`mapM`, `anyM` and folds with functions that may have no value or fail, folds that collect what satisfies a test,
`filterMap` on the elements in another order or on some of them, and the parts before and after the first place of an
element or between the places of a separator.
-/

namespace Tulpje.Lib

variable {α β : Type}

/-- A list is split in one way at the first place of an element. -/
theorem append_cons_inj {α : Type*} {a : α} {xs xs' ys ys' : List α} (hxs : a ∉ xs) (hxs' : a ∉ xs')
    (h : xs ++ a :: ys = xs' ++ a :: ys') : xs = xs' ∧ ys = ys' := by
  induction xs generalizing xs' with
  | nil =>
    cases xs' with
    | nil => exact ⟨rfl, (List.cons.inj h).2⟩
    | cons x' xs' => exact absurd (List.cons.inj h).1 (List.ne_of_not_mem_cons hxs')
  | cons x xs ih =>
    cases xs' with
    | nil => exact absurd (List.cons.inj h).1.symm (List.ne_of_not_mem_cons hxs)
    | cons x' xs' =>
      obtain ⟨rfl, htail⟩ := List.cons.inj h
      obtain ⟨rfl, hys⟩ := ih (List.not_mem_of_not_mem_cons hxs) (List.not_mem_of_not_mem_cons hxs') htail
      exact ⟨rfl, hys⟩

/-- What is split off does not contain the separator. -/
theorem notMem_of_mem_splitOn {α : Type*} [DecidableEq α] {c : α} {text part : List α} (h : part ∈ text.splitOn c) :
    c ∉ part := by
  induction text generalizing part with
  | nil =>
    rw [List.splitOn_nil, List.mem_singleton] at h
    simp [h]
  | cons d text ih =>
    rw [List.splitOn_cons_eq_if_modifyHead] at h
    split at h
    · rcases List.mem_cons.mp h with rfl | h
      · exact List.not_mem_nil
      · exact ih h
    next hd =>
      obtain ⟨first, rest, hsplit⟩ := List.exists_cons_of_ne_nil (List.splitOn_ne_nil c text)
      rw [hsplit] at h ih
      rcases List.mem_cons.mp h with rfl | h
      · intro hc
        rcases List.mem_cons.mp hc with rfl | hc
        · simp at hd
        · exact ih List.mem_cons_self hc
      · exact ih (List.mem_cons_of_mem _ h)

/-- Every other element is split off with some part. -/
theorem exists_mem_splitOn {α : Type*} [DecidableEq α] {c d : α} {text : List α} (hd : d ∈ text) (hne : d ≠ c) :
    ∃ part ∈ text.splitOn c, d ∈ part := by
  induction text with
  | nil => cases hd
  | cons e text ih =>
    rw [List.splitOn_cons_eq_if_modifyHead]
    split
    next he =>
      obtain ⟨part, hpart, hmem⟩ := ih ((List.mem_cons.mp hd).resolve_left fun h => hne (h.trans (by simpa using he)))
      exact ⟨part, List.mem_cons_of_mem _ hpart, hmem⟩
    next =>
      obtain ⟨first, rest, hsplit⟩ := List.exists_cons_of_ne_nil (List.splitOn_ne_nil c text)
      rw [hsplit] at ih ⊢
      rcases List.mem_cons.mp hd with rfl | hd
      · exact ⟨d :: first, List.mem_cons_self, List.mem_cons_self⟩
      · obtain ⟨part, hpart, hmem⟩ := ih hd
        rcases List.mem_cons.mp hpart with rfl | hpart
        · exact ⟨e :: part, List.mem_cons_self, List.mem_cons_of_mem e hmem⟩
        · exact ⟨part, List.mem_cons_of_mem _ hpart, hmem⟩

/-- Parts that together have no element twice have none in common. -/
theorem eq_of_mem_of_nodup_flatMap {α β : Type*} {f : α → List β} {l : List α} (hl : (l.flatMap f).Nodup) {a b : α}
    (ha : a ∈ l) (hb : b ∈ l) {x : β} (hxa : x ∈ f a) (hxb : x ∈ f b) : a = b := by
  by_contra hne
  have hsymm : Std.Symm (Function.onFun List.Disjoint f) := ⟨fun _ _ h _ hb ha => h ha hb⟩
  exact (List.nodup_flatMap.mp hl).2.forall ha hb hne hxa hxb

theorem anyM_eq_ok {ε α : Type} {f : α → Except ε Bool} {g : α → Bool} {l : List α} (h : ∀ a ∈ l, f a = .ok (g a)) :
    l.anyM f = .ok (l.any g) := by
  induction l with
  | nil => rfl
  | cons a l ih =>
    obtain ⟨ha, hl⟩ := List.forall_mem_cons.mp h
    rw [List.anyM, ha, List.any_cons]
    cases g a with
    | true => rfl
    | false => exact ih hl

theorem bind_eq_ok {ε α β : Type} {x : Except ε α} {f : α → Except ε β} {b : β} :
    (x >>= f) = .ok b ↔ ∃ a, x = .ok a ∧ f a = .ok b := by
  cases x with
  | error e => exact ⟨nofun, nofun⟩
  | ok a => exact ⟨fun h => ⟨a, rfl, h⟩, fun ⟨_, ha, h⟩ => Except.ok.inj ha ▸ h⟩

theorem mapError_eq_ok {ε ε' α : Type} {x : Except ε α} {f : ε → ε'} {a : α} : x.mapError f = .ok a ↔ x = .ok a := by
  cases x with
  | error e => exact ⟨nofun, nofun⟩
  | ok b => exact ⟨fun h => congrArg _ (Except.ok.inj h), fun h => congrArg _ (Except.ok.inj h)⟩

theorem mapM_eq_ok {ε α β : Type} {f : α → Except ε β} {g : α → β} {l : List α} (h : ∀ a ∈ l, f a = .ok (g a)) :
    l.mapM f = .ok (l.map g) := by
  induction l with
  | nil => rfl
  | cons a l ih =>
    obtain ⟨ha, hl⟩ := List.forall_mem_cons.mp h
    rw [List.mapM_cons, ha, ih hl]
    rfl

theorem forall₂_of_mapM_eq_ok {ε α β : Type} {f : α → Except ε β} {l : List α} {l' : List β} (h : l.mapM f = .ok l') :
    List.Forall₂ (fun a b => f a = .ok b) l l' := by
  induction l generalizing l' with
  | nil =>
    cases h
    exact .nil
  | cons a l ih =>
    rw [List.mapM_cons] at h
    obtain ⟨b, hb, h⟩ := bind_eq_ok.mp h
    obtain ⟨bs, hbs, h⟩ := bind_eq_ok.mp h
    cases h
    exact .cons hb (ih hbs)

theorem exists_mem_of_forall₂ {α β : Type} {R : α → β → Prop} {l : List α} {l' : List β} (h : List.Forall₂ R l l')
    {b : β} (hb : b ∈ l') : ∃ a ∈ l, R a b := by
  induction h with
  | nil => cases hb
  | @cons a b' l l' hab _ ih =>
    rcases List.mem_cons.mp hb with rfl | hb
    · exact ⟨a, List.mem_cons_self, hab⟩
    · obtain ⟨a, ha, hab⟩ := ih hb
      exact ⟨a, List.mem_cons_of_mem _ ha, hab⟩

theorem map_eq_of_forall₂ {α β γ : Type} {f : α → γ} {g : β → γ} {l : List α} {l' : List β}
    (h : List.Forall₂ (fun a b => f a = g b) l l') : l.map f = l'.map g := by
  rw [← List.forall₂_eq_eq_eq, List.forall₂_map_left_iff, List.forall₂_map_right_iff]
  exact h

theorem foldlM_concat_eq_ok {ε α β : Type} {f : β → α → Except ε β} {l : List α} {a : α} {b c d : β}
    (hl : l.foldlM f b = .ok c) (ha : f c a = .ok d) : (l ++ [a]).foldlM f b = .ok d := by
  rw [List.foldlM_append, hl]
  change (f c a).bind (fun d => List.foldlM f d []) = _
  rw [ha]
  rfl

theorem foldl_append_if {α β : Type} (p : α → Prop) [DecidablePred p] (f : α → β) (xs : List α) (ys : List β) :
    xs.foldl (fun ys x => if p x then ys ++ [f x] else ys) ys = ys ++ (xs.filter p).map f := by
  induction xs generalizing ys with
  | nil => simp
  | cons x xs ih =>
    rw [List.foldl_cons, ih]
    by_cases hx : p x <;> simp [hx]

theorem mapM_eq_some_iff {f : α → Option β} {xs : List α} {ys : List β} :
    xs.mapM f = some ys ↔ xs.map f = ys.map some := by
  induction xs generalizing ys with
  | nil => cases ys <;> simp
  | cons x xs ih =>
    rw [List.mapM_cons, List.map_cons]
    rcases hx : f x with _ | y
    · refine iff_of_false nofun fun h => ?_
      cases ys with
      | nil => cases h
      | cons y ys => cases (List.cons.inj h).1
    · rcases hxs : xs.mapM f with _ | zs
      · refine iff_of_false nofun fun h => ?_
        cases ys with
        | nil => cases h
        | cons y' ys =>
          have hrest := ih.mpr (List.cons.inj h).2
          rw [hxs] at hrest
          cases hrest
      · have hzs := ih.mp hxs
        rw [hzs]
        show some (y :: zs) = some ys ↔ (y :: zs).map some = ys.map some
        rw [Option.some.injEq, List.map_injective_iff.mpr (Option.some_injective _) |>.eq_iff]

theorem mapM_eq_some_of_forall {f : α → Option β} {xs : List α} (h : ∀ x ∈ xs, ∃ y, f x = some y) :
    xs.mapM f = some (xs.filterMap f) := by
  rw [mapM_eq_some_iff]
  induction xs with
  | nil => rfl
  | cons x xs ih =>
    obtain ⟨⟨y, hy⟩, hxs⟩ := List.forall_mem_cons.mp h
    rw [List.map_cons, List.filterMap_cons, hy, ih hxs]
    rfl

/-- Another order of the results comes from another order of the arguments. -/
theorem exists_perm_of_filterMap {f : α → Option β} {ys ys' : List β} (h : ys.Perm ys') {xs : List α}
    (hxs : xs.filterMap f = ys) : ∃ xs' : List α, xs'.Perm xs ∧ xs'.filterMap f = ys' := by
  induction h generalizing xs with
  | nil => exact ⟨xs, .refl _, hxs⟩
  | cons y _ ih =>
    obtain ⟨pre, x, post, rfl, hpre, hx, hpost⟩ := List.filterMap_eq_cons_iff.mp hxs
    obtain ⟨post', hperm, hpost'⟩ := ih hpost
    exact ⟨pre ++ x :: post', (hperm.cons x).append_left pre,
      List.filterMap_eq_cons_iff.mpr ⟨pre, x, post', rfl, hpre, hx, hpost'⟩⟩
  | swap y y' ys =>
    obtain ⟨pre, x, post, rfl, hpre, hx, hpost⟩ := List.filterMap_eq_cons_iff.mp hxs
    obtain ⟨pre', x', post', rfl, hpre', hx', hpost'⟩ := List.filterMap_eq_cons_iff.mp hpost
    refine ⟨pre ++ (pre' ++ x' :: x :: post'), ?_, ?_⟩
    · refine List.Perm.append_left pre ?_
      exact ((List.Perm.swap x x' post').append_left pre').trans List.perm_middle
    · simp [List.filterMap_append, List.filterMap_eq_nil_iff.mpr hpre, List.filterMap_eq_nil_iff.mpr hpre', hx, hx',
        hpost']
  | trans _ _ ih₁ ih₂ =>
    obtain ⟨xs₁, hperm₁, hxs₁⟩ := ih₁ hxs
    obtain ⟨xs₂, hperm₂, hxs₂⟩ := ih₂ hxs₁
    exact ⟨xs₂, hperm₂.trans hperm₁, hxs₂⟩

theorem filterMap_sublist {f g : α → Option β} (h : ∀ x y, f x = some y → g x = some y) {xs : List α} :
    List.Sublist (xs.filterMap f) (xs.filterMap g) := by
  induction xs with
  | nil => exact List.Sublist.slnil
  | cons x xs ih =>
    cases hf : f x with
    | none =>
      rw [List.filterMap_cons_none hf]
      exact ih.trans ((List.sublist_cons_self x xs).filterMap g)
    | some y =>
      rw [List.filterMap_cons_some hf, List.filterMap_cons_some (h x y hf)]
      exact ih.cons_cons y

theorem subperm_filterMap {xs xs' : List α} (f : α → Option β) (h : List.Subperm xs xs') :
    List.Subperm (xs.filterMap f) (xs'.filterMap f) := by
  obtain ⟨ys, hperm, hsublist⟩ := h
  exact ⟨ys.filterMap f, hperm.filterMap f, hsublist.filterMap f⟩

theorem subperm_flatMap {f g : α → List β} {xs : List α} (h : ∀ x ∈ xs, List.Subperm (f x) (g x)) :
    List.Subperm (xs.flatMap f) (xs.flatMap g) := by
  induction xs with
  | nil => exact List.Subperm.refl []
  | cons x xs ih =>
    obtain ⟨hx, hxs⟩ := List.forall_mem_cons.mp h
    exact hx.append (ih hxs)

end Tulpje.Lib
