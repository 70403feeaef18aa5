import Tulpje.Lib.Command

/-!
# Weakest preconditions and invariants of programs

`wp p Q E s`: the run of `p` from `s` ends in `Q` if it returns and in `E` if it fails. A program `Keeps` an
invariant if every run from a state with it ends in one, whether or not it fails; so the invariant may be
broken between two commands of a program, and `wp` is what such a program is computed with.
-/

namespace Tulpje.Lib.Prog

variable {ε Op σ α β : Type} {Reply : Op → Type} (eval : (o : Op) → σ → Reply o × σ)

def wp (p : Prog ε Op Reply α) (Q : α → σ → Prop) (E : σ → Prop) (s : σ) : Prop :=
  match p.exec eval s with
  | (.ok a, t) => Q a t
  | (.error _, t) => E t

variable {eval} {p : Prog ε Op Reply α} {Q Q' : α → σ → Prop} {E : σ → Prop} {s t : σ}

theorem wp_of_exec {a : α} (h : p.exec eval s = (.ok a, t)) : p.wp eval Q E s ↔ Q a t := by
  rw [wp, h]

@[simp] theorem wp_pure (a : α) : (Pure.pure a : Prog ε Op Reply α).wp eval Q E s ↔ Q a s := Iff.rfl

@[simp] theorem wp_throw (e : ε) : (throw e : Prog ε Op Reply α).wp eval Q E s ↔ E s := Iff.rfl

theorem wp_bind {f : α → Prog ε Op Reply β} {Q : β → σ → Prop} :
    (p >>= f).wp eval Q E s ↔ p.wp eval (fun a => (f a).wp eval Q E) E s := by
  unfold wp
  rw [exec_bind]
  rcases p.exec eval s with ⟨_ | a, t⟩ <;> exact Iff.rfl

theorem wp_mono (h : p.wp eval Q E s) (hQ : ∀ a t, Q a t → Q' a t) : p.wp eval Q' E s := by
  unfold wp at h ⊢
  rcases hp : p.exec eval s with ⟨_ | a, t⟩
  · rw [hp] at h
    exact h
  · rw [hp] at h
    exact hQ a t h

/-! ### Invariants -/

variable (eval) in
def Keeps (I : σ → Prop) (p : Prog ε Op Reply α) : Prop := ∀ s, I s → p.wp eval (fun _ => I) I s

variable {I : σ → Prop}

theorem exec_of_wp (h : p.wp eval (fun _ => I) I s) : I (p.exec eval s).2 := by
  unfold wp at h
  rcases hp : p.exec eval s with ⟨_ | a, t⟩ <;> rwa [hp] at h

theorem Keeps.exec (h : Keeps eval I p) (hs : I s) : I (p.exec eval s).2 := exec_of_wp (h s hs)

theorem Keeps.of_exec (h : ∀ s, I s → I (p.exec eval s).2) : Keeps eval I p := by
  intro s hs
  have hI := h s hs
  unfold wp
  rcases hp : p.exec eval s with ⟨_ | a, t⟩ <;> rwa [hp] at hI

theorem Keeps.pure (a : α) : Keeps eval I (Pure.pure a : Prog ε Op Reply α) := fun _ hs => hs

theorem Keeps.bind {f : α → Prog ε Op Reply β} (hp : Keeps eval I p) (hf : ∀ a, Keeps eval I (f a)) :
    Keeps eval I (p >>= f) :=
  fun s hs => wp_bind.mpr (wp_mono (hp s hs) fun a t ht => hf a t ht)

theorem Keeps.forM {γ : Type} {xs : List γ} {p : γ → Prog ε Op Reply PUnit}
    (hp : ∀ x ∈ xs, Keeps eval I (p x)) : Keeps eval I (xs.forM p) := by
  induction xs with
  | nil => exact Keeps.pure _
  | cons x xs ih =>
    have hfirst := hp x (List.mem_cons_self ..)
    exact hfirst.bind fun _ => ih fun y hy => hp y (List.mem_cons_of_mem _ hy)

/-- A program whose commands keep the invariant. -/
theorem Keeps.of_all {P : Op → Prop} {E : ε → Prop} (hp : p.All P E) (h : ∀ o, P o → ∀ s, I s → I (eval o s).2) :
    Keeps eval I p := by
  refine Keeps.of_exec fun s hs => ?_
  induction p generalizing s with
  | pure a => exact hs
  | throw e => exact hs
  | call o k ih => exact ih _ (hp.2 _) _ (h o hp.1 s hs)

/-! ### Programs that return -/

variable (eval) in
/-- Runs from a state with the invariant return, in one with the invariant. -/
def Safe (I : σ → Prop) (p : Prog ε Op Reply α) : Prop :=
  ∀ s, I s → p.wp eval (fun _ => I) (fun _ => False) s

theorem Safe.pure (a : α) : Safe eval I (Pure.pure a : Prog ε Op Reply α) := fun _ hs => hs

theorem Safe.bind {f : α → Prog ε Op Reply β} (hp : Safe eval I p) (hf : ∀ a, Safe eval I (f a)) :
    Safe eval I (p >>= f) :=
  fun s hs => wp_bind.mpr (wp_mono (hp s hs) fun a t ht => hf a t ht)

theorem Safe.forM {γ : Type} {xs : List γ} {p : γ → Prog ε Op Reply PUnit}
    (hp : ∀ x ∈ xs, Safe eval I (p x)) : Safe eval I (xs.forM p) := by
  induction xs with
  | nil => exact Safe.pure _
  | cons x xs ih =>
    have hfirst := hp x (List.mem_cons_self ..)
    exact hfirst.bind fun _ => ih fun y hy => hp y (List.mem_cons_of_mem _ hy)

theorem exec_of_safe (h : p.wp eval (fun _ => I) (fun _ => False) s) : I (p.exec eval s).2 := by
  unfold wp at h
  rcases hp : p.exec eval s with ⟨_ | a, t⟩ <;> rw [hp] at h
  · exact h.elim
  · exact h

theorem Safe.of_keeps {P : Op → Prop} (hI : Keeps eval I p) (hp : p.All P fun _ => False) :
    Safe eval I p := by
  intro s hs
  obtain ⟨a, hexec⟩ := exec_ok_of_all hp s
  exact (wp_of_exec hexec).mpr ((wp_of_exec hexec).mp (hI s hs))

theorem Safe.exec_ok (hp : Safe eval I p) (hs : I s) : ∃ a t, p.exec eval s = (.ok a, t) ∧ I t := by
  have h := hp s hs
  unfold wp at h
  rcases hexec : p.exec eval s with ⟨_ | a, t⟩
  · rw [hexec] at h
    exact h.elim
  · rw [hexec] at h
    exact ⟨a, t, rfl, h⟩

end Tulpje.Lib.Prog
