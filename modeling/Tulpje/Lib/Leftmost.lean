import Tulpje.Lib.Lists

/-!
# Leftmost matches

The parts of a text that a search from left to right finds: each one is the first after the end of the one before.
`P m b` says that the part `m` is a match, and that `b` is what is reported of it. Where two matches never overlap
(`Apart`), the search finds all of them, and what it finds is unique.
-/

namespace Tulpje.Lib

variable {α β γ : Type*}

inductive Leftmost (P : List α → β → Prop) : List α → List β → Prop
  | none {text} (hnone : ∀ before m after b, text = before ++ m ++ after → ¬P m b) : Leftmost P text []
  | next {text before m after b bs} (htext : text = before ++ m ++ after) (hm : P m b)
      (hfirst : ∀ before' m' after' b', text = before' ++ m' ++ after' → P m' b' → before.length ≤ before'.length)
      (hrest : Leftmost P after bs) : Leftmost P text (b :: bs)

/-- Two matches in a text are the same or the second one starts after the end of the first. -/
def Apart (P : List α → β → Prop) : Prop :=
  ∀ ⦃before m after b before' m' after' b'⦄, before ++ m ++ after = before' ++ m' ++ after' → P m b → P m' b' →
    before.length ≤ before'.length → (before = before' ∧ m = m') ∨ (before ++ m).length ≤ before'.length

variable {P : List α → β → Prop} {text : List α} {bs : List β}

namespace Leftmost

/-- A character at which no match starts. -/
theorem cons (h : Leftmost P text bs) (c : α) (hc : ∀ m after b, c :: text = m ++ after → ¬P m b) :
    Leftmost P (c :: text) bs := by
  cases h with
  | none hnone =>
    refine .none fun before m after b htext hm => ?_
    cases before with
    | nil => exact hc m after b htext hm
    | cons d before => exact hnone before m after b (List.cons.inj htext).2 hm
  | @next _ before m after b bs htext hm hfirst hrest =>
    have hcons : c :: text = (c :: before) ++ m ++ after := by
      rw [htext]
      rfl
    refine .next hcons hm (fun before' m' after' b' htext' hm' => ?_) hrest
    cases before' with
    | nil => exact absurd hm' (hc m' after' b' htext')
    | cons d before' =>
      have hle := hfirst before' m' after' b' (List.cons.inj htext').2 hm'
      simpa using hle

theorem exists_match (h : Leftmost P text bs) {b : β} (hb : b ∈ bs) :
    ∃ before m after, text = before ++ m ++ after ∧ P m b := by
  induction h with
  | none => cases hb
  | @next text before m after b' bs htext hm _ _ ih =>
    rcases List.mem_cons.mp hb with rfl | hb
    · exact ⟨before, m, after, htext, hm⟩
    · obtain ⟨before', m', after', rfl, hm'⟩ := ih hb
      exact ⟨before ++ m ++ before', m', after', by simp [htext], hm'⟩

/-- The rest of a text from the end of its first part. -/
theorem exists_append {before m after before' m' after' : List α}
    (htext : before ++ m ++ after = before' ++ m' ++ after') (hle : (before ++ m).length ≤ before'.length) :
    ∃ gap, after = gap ++ m' ++ after' := by
  rw [List.append_assoc before'] at htext
  rcases List.append_eq_append_iff.mp htext with ⟨gap, -, hafter⟩ | ⟨gap, hgap, hafter⟩
  · exact ⟨gap, by rw [hafter, List.append_assoc]⟩
  · have hnil : gap = [] := by
      rw [hgap, List.length_append] at hle
      exact List.length_eq_zero_iff.mp (by omega)
    exact ⟨[], by simpa [hnil] using hafter.symm⟩

theorem exists_mem (hapart : Apart P) (h : Leftmost P text bs) {before m after : List α} {b : β}
    (htext : text = before ++ m ++ after) (hm : P m b) : ∃ b' ∈ bs, P m b' := by
  induction h generalizing before with
  | none hnone => exact absurd hm (hnone before m after b htext)
  | @next text before₁ m₁ after₁ b₁ bs htext₁ hm₁ hfirst _ ih =>
    have hboth : before₁ ++ m₁ ++ after₁ = before ++ m ++ after := htext₁.symm.trans htext
    rcases hapart hboth hm₁ hm (hfirst before m after b htext hm) with ⟨-, rfl⟩ | hle
    · exact ⟨b₁, List.mem_cons_self, hm₁⟩
    · obtain ⟨gap, hafter⟩ := exists_append hboth hle
      obtain ⟨b', hb', hmb'⟩ := ih hafter
      exact ⟨b', List.mem_cons_of_mem b₁ hb', hmb'⟩

theorem unique (hapart : Apart P) (hreport : ∀ {m b b'}, P m b → P m b' → b = b') {bs' : List β}
    (h : Leftmost P text bs) (h' : Leftmost P text bs') : bs = bs' := by
  induction h generalizing bs' with
  | none hnone =>
    cases h' with
    | none => rfl
    | next htext hm => exact absurd hm (hnone _ _ _ _ htext)
  | @next text before m after b bs htext hm hfirst _ ih =>
    cases h' with
    | none hnone => exact absurd hm (hnone _ _ _ _ htext)
    | @next _ before' m' after' b' bs' htext' hm' hfirst' hrest' =>
      have hboth : before ++ m ++ after = before' ++ m' ++ after' := htext.symm.trans htext'
      have hlength := Nat.le_antisymm (hfirst _ _ _ _ htext' hm') (hfirst' _ _ _ _ htext hm)
      have hbefore : before = before' := by
        rw [List.append_assoc, List.append_assoc] at hboth
        exact (List.append_inj hboth hlength).1
      subst hbefore
      obtain rfl : m = m' := by
        rcases hapart hboth hm hm' (Nat.le_refl _) with ⟨-, hm⟩ | hle
        · exact hm
        · have hboth' := hboth.symm
          rcases hapart hboth' hm' hm (Nat.le_refl _) with ⟨-, hm⟩ | hle'
          · exact hm.symm
          · rw [List.length_append] at hle hle'
            rw [List.length_eq_zero_iff.mp (by omega : m.length = 0),
              List.length_eq_zero_iff.mp (by omega : m'.length = 0)]
      obtain rfl : after = after' := List.append_cancel_left hboth
      rw [hreport hm hm', ih hrest']

section Start

variable {left : α} (hstart : ∀ {m b}, P m b → ∃ inner, m = left :: inner)
include hstart

theorem none_of_notMem (h : left ∉ text) : Leftmost P text [] := by
  refine .none fun before m after b htext hm => h ?_
  obtain ⟨inner, rfl⟩ := hstart hm
  rw [htext]
  simp

theorem next_of_notMem {before m after : List α} {b : β} (hbefore : left ∉ before) (hm : P m b)
    (hrest : Leftmost P after bs) : Leftmost P (before ++ m ++ after) (b :: bs) := by
  refine .next rfl hm (fun before' m' after' b' htext' hm' => ?_) hrest
  obtain ⟨inner, rfl⟩ := hstart hm'
  rw [List.append_assoc, List.append_assoc] at htext'
  rcases List.append_eq_append_iff.mp htext' with ⟨gap, rfl, -⟩ | ⟨gap, rfl, hgap⟩
  · simp
  · cases gap with
    | nil => simp
    | cons c gap =>
      obtain rfl : left = c := (List.cons.inj hgap).1
      simp at hbefore

end Start

theorem mapM {Q : List α → γ → Prop} {f : β → Option γ} {cs : List γ} (h : Leftmost P text bs)
    (hmap : bs.map f = cs.map some) (hreport : ∀ {m b c}, P m b → f b = some c → Q m c)
    (hmatch : ∀ {m c}, Q m c → ∃ b, P m b) : Leftmost Q text cs := by
  induction h generalizing cs with
  | none hnone =>
    obtain rfl : cs = [] := by simpa using hmap.symm
    refine .none fun before m after c htext hm => ?_
    obtain ⟨b, hb⟩ := hmatch hm
    exact hnone before m after b htext hb
  | @next text before m after b bs htext hm hfirst _ ih =>
    cases cs with
    | nil => cases hmap
    | cons c cs =>
      obtain ⟨hc, hcs⟩ := List.cons.inj hmap
      refine .next htext (hreport hm hc) (fun before' m' after' c' htext' hm' => ?_) (ih hcs)
      obtain ⟨b', hb'⟩ := hmatch hm'
      exact hfirst before' m' after' b' htext' hb'

end Leftmost

/-- Matches between two brackets that do not contain the brackets. -/
theorem apart_of_brackets {left right : α} (hne : left ≠ right)
    (h : ∀ {m b}, P m b → ∃ inner, m = left :: (inner ++ [right]) ∧ left ∉ inner ∧ right ∉ inner) : Apart P := by
  intro before m after b before' m' after' b' htext hm hm' hle
  obtain ⟨inner, rfl, hleft, hright⟩ := h hm
  obtain ⟨inner', rfl, hleft', hright'⟩ := h hm'
  rw [List.append_assoc, List.append_assoc] at htext
  obtain ⟨gap, rfl⟩ : before <+: before' := List.prefix_of_prefix_length_le ⟨_, htext⟩ ⟨_, rfl⟩ hle
  rw [List.append_assoc] at htext
  have hgap := List.append_cancel_left htext
  cases gap with
  | nil =>
    have hinner : inner ++ right :: after = inner' ++ right :: after' := by simpa using hgap
    have hsame := append_cons_inj hright hright' hinner
    simp [hsame.1]
  | cons c gap =>
    have hinner : inner ++ right :: after = gap ++ left :: (inner' ++ right :: after') := by
      have h := (List.cons.inj hgap).2
      simpa using h
    rcases List.append_eq_append_iff.mp hinner with ⟨more, rfl, hmore⟩ | ⟨more, rfl, hmore⟩
    · cases more with
      | nil => exact absurd (List.cons.inj hmore).1 hne.symm
      | cons d more =>
        right
        simp
    · cases more with
      | nil => exact absurd (List.cons.inj hmore).1 hne
      | cons d more =>
        obtain rfl : left = d := (List.cons.inj hmore).1
        simp at hleft

end Tulpje.Lib
