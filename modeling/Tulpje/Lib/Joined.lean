import Mathlib.Data.List.Basic

/-!
# Names joined by a separator

Names without the separator can be read off their joined text, and so can those after a first one that may
contain it.
-/

namespace Tulpje.Lib

variable {sep : String} {c : Char}

theorem intercalate_injective (hsep : sep.toList = [c]) {xs ys : List String}
    (hxs : ∀ x ∈ xs, c ∉ x.toList) (hys : ∀ y ∈ ys, c ∉ y.toList) (hx : xs ≠ []) (hy : ys ≠ [])
    (h : sep.intercalate xs = sep.intercalate ys) : xs = ys := by
  have hread : ∀ {zs : List String}, (∀ z ∈ zs, c ∉ z.toList) → zs ≠ [] →
      (sep.intercalate zs).toList.splitOn c = zs.map String.toList := by
    intro zs hzs hz
    rw [String.toList_intercalate, hsep, List.splitOn_intercalate c (by simpa using hzs) (by simpa using hz)]
  have hlists : xs.map String.toList = ys.map String.toList := by
    rw [← hread hxs hx, ← hread hys hy, h]
  exact List.map_injective_iff.mpr (fun _ _ => String.toList_inj.mp) hlists

theorem intercalate_cons_injective (hsep : sep.toList = [c]) (name : String) {xs ys : List String}
    (hxs : ∀ x ∈ xs, c ∉ x.toList) (hys : ∀ y ∈ ys, c ∉ y.toList)
    (h : sep.intercalate (name :: xs) = sep.intercalate (name :: ys)) : xs = ys := by
  -- a longer text does not equal the name alone
  have hlonger : ∀ {zs : List String}, zs ≠ [] → sep.intercalate [name] ≠ sep.intercalate (name :: zs) := by
    intro zs hz heq
    rw [String.intercalate_singleton, String.intercalate_cons_of_ne_nil hz] at heq
    have hlength := congrArg (fun s => s.toList.length) heq
    simp only [String.toList_append, hsep, List.length_append, List.length_singleton] at hlength
    omega
  by_cases hx : xs = []
  · subst hx
    by_cases hy : ys = []
    · exact hy.symm
    · exact absurd h (hlonger hy)
  · by_cases hy : ys = []
    · subst hy
      exact absurd h.symm (hlonger hx)
    · rw [String.intercalate_cons_of_ne_nil hx, String.intercalate_cons_of_ne_nil hy] at h
      exact intercalate_injective hsep hxs hys hx hy (String.append_right_inj _ |>.mp h)

end Tulpje.Lib
