import Mathlib.Data.List.Basic

/-!
# Folds and what they keep

A projection that no step changes is not changed by a `List.foldlM` over `Option`. A nested fold is one fold over
the joined list.
-/

namespace Tulpje.Lib

variable {α β γ : Type*}

theorem foldlM_keeps {f : β → α → Option β} (g : β → γ) (h : ∀ b a b', f b a = some b' → g b' = g b)
    {l : List α} {b b' : β} (hl : l.foldlM f b = some b') : g b' = g b := by
  induction l generalizing b with
  | nil =>
    rw [List.foldlM_nil] at hl
    rw [Option.some.inj hl]
  | cons a l ih =>
    rw [List.foldlM_cons] at hl
    obtain ⟨c, hc, hl⟩ := Option.bind_eq_some_iff.mp hl
    rw [ih hl, h b a c hc]

theorem foldlM_flatMap {δ : Type*} (f : β → α → Option β) (g : δ → List α) (l : List δ) (b : β) :
    (l.flatMap g).foldlM f b = l.foldlM (fun b d => (g d).foldlM f b) b := by
  induction l generalizing b with
  | nil => rfl
  | cons d l ih =>
    rw [List.flatMap_cons, List.foldlM_append, List.foldlM_cons]
    exact congrArg _ (funext fun b => ih b)

end Tulpje.Lib
