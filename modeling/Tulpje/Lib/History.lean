import Tulpje.Lib.Interference

/-!
# What a program may do after what was answered

`Traced R Q E past`: after the calls `past` and their answers, each call of the program is one that `R` allows after the
ones before it, and `Q` and `E` hold of how it ends, whatever is answered. Parts of a program that are of no concern
keep an invariant of the history (`Traced.keeps`). A history has the newest call first.
-/

namespace Tulpje.Lib

variable {ε Op σ α β ι : Type} {Reply : Op → Type}

namespace Prog

/-- A call and its answer. -/
abbrev Answered (Reply : Op → Type) := (o : Op) × Reply o

def Traced (R : List (Answered Reply) → Op → Prop) (Q : List (Answered Reply) → α → Prop)
    (E : List (Answered Reply) → ε → Prop) : List (Answered Reply) → Prog ε Op Reply α → Prop
  | past, .pure a => Q past a
  | past, .throw e => E past e
  | past, .call o k => R past o ∧ ∀ r, (k r).Traced R Q E (⟨o, r⟩ :: past)

section Traced
variable {R : List (Answered Reply) → Op → Prop} {Q Q' : List (Answered Reply) → α → Prop}
  {E : List (Answered Reply) → ε → Prop} {past : List (Answered Reply)} {p : Prog ε Op Reply α}

theorem Traced.pure {a : α} (h : Q past a) : (Pure.pure a : Prog ε Op Reply α).Traced R Q E past := h

theorem Traced.throw {e : ε} (h : E past e) : (throw e : Prog ε Op Reply α).Traced R Q E past := h

theorem Traced.send {o : Op} {Q : List (Answered Reply) → Reply o → Prop} (ho : R past o)
    (h : ∀ r, Q (⟨o, r⟩ :: past) r) : (send o : Prog ε Op Reply (Reply o)).Traced R Q E past := ⟨ho, h⟩

/-- A call and what follows it. -/
theorem Traced.send_bind {o : Op} {f : Reply o → Prog ε Op Reply α} (ho : R past o)
    (hf : ∀ r, (f r).Traced R Q E (⟨o, r⟩ :: past)) : (Prog.send o >>= f).Traced R Q E past := ⟨ho, hf⟩

theorem Traced.bind {f : α → Prog ε Op Reply β} {Q : List (Answered Reply) → β → Prop}
    (hp : p.Traced R (fun past a => (f a).Traced R Q E past) E past) : (p >>= f).Traced R Q E past := by
  show (p.bind f).Traced R Q E past
  induction p generalizing past with
  | pure a => exact hp
  | throw e => exact hp
  | call o k ih => exact ⟨hp.1, fun r => ih r (hp.2 r)⟩

theorem Traced.mono (hp : p.Traced R Q E past) (h : ∀ past a, Q past a → Q' past a) : p.Traced R Q' E past := by
  induction p generalizing past with
  | pure a => exact h past a hp
  | throw e => exact hp
  | call o k ih => exact ⟨hp.1, fun r => ih r (hp.2 r)⟩

theorem Traced.mono_error {E' : List (Answered Reply) → ε → Prop} (hp : p.Traced R Q E past)
    (h : ∀ past e, E past e → E' past e) : p.Traced R Q E' past := by
  induction p generalizing past with
  | pure a => exact hp
  | throw e => exact h past e hp
  | call o k ih => exact ⟨hp.1, fun r => ih r (hp.2 r)⟩

theorem Traced.imp {R' : List (Answered Reply) → Op → Prop} (hp : p.Traced R Q E past)
    (h : ∀ past o, R past o → R' past o) : p.Traced R' Q E past := by
  induction p generalizing past with
  | pure a => exact hp
  | throw e => exact hp
  | call o k ih => exact ⟨h past o hp.1, fun r => ih r (hp.2 r)⟩

/-- Calls that an invariant allows and that keep it. -/
theorem Traced.keeps {P : Op → Prop} {I : List (Answered Reply) → Prop}
    (hp : p.All P fun e => ∀ past, I past → E past e)
    (hR : ∀ o past, P o → I past → R past o) (hkeep : ∀ o r past, P o → I past → I (⟨o, r⟩ :: past))
    (hI : I past) : p.Traced R (fun past _ => I past) E past := by
  induction p generalizing past with
  | pure a => exact hI
  | throw e => exact hp past hI
  | call o k ih => exact ⟨hR o past hp.1 hI, fun r => ih r (hp.2 r) (hkeep o r past hp.1 hI)⟩

/-- The history only grows. -/
theorem Traced.grows (hp : p.Traced R Q E past) : p.Traced R (fun past' a => past ⊆ past' ∧ Q past' a) E past := by
  suffices hsub : ∀ past', past ⊆ past' → p.Traced R Q E past' →
      p.Traced R (fun past' a => past ⊆ past' ∧ Q past' a) E past' from hsub past (List.Subset.refl _) hp
  clear hp
  induction p with
  | pure a => exact fun past' hsub hp => ⟨hsub, hp⟩
  | throw e => exact fun past' hsub hp => hp
  | call o k ih =>
    exact fun past' hsub hp => ⟨hp.1, fun r => ih r _ (List.subset_cons_of_subset _ hsub) (hp.2 r)⟩

/-- What follows a program knows what was answered before it, too. -/
theorem Traced.bind_grows {f : α → Prog ε Op Reply β} {Q' : List (Answered Reply) → β → Prop}
    (hp : p.Traced R Q E past) (hf : ∀ past' a, past ⊆ past' → Q past' a → (f a).Traced R Q' E past') :
    (p >>= f).Traced R Q' E past :=
  (hp.grows.mono fun past' a h => hf past' a h.1 h.2).bind

theorem Traced.ofExcept {x : Except ε α} (hok : ∀ a, x = .ok a → Q past a) (herror : ∀ e, x = .error e → E past e) :
    (ofExcept x : Prog ε Op Reply α).Traced R Q E past := by
  cases x with
  | ok a => exact hok a rfl
  | error e => exact herror e rfl

theorem Traced.mapResult {ε' : Type} {g : Except ε α → Except ε' β} {Q : List (Answered Reply) → β → Prop}
    {E : List (Answered Reply) → ε' → Prop}
    (hp : p.Traced R (fun past a => (Prog.ofExcept (g (.ok a))).Traced R Q E past)
      (fun past e => (Prog.ofExcept (g (.error e))).Traced R Q E past) past) :
    (p.mapResult g).Traced R Q E past := by
  induction p generalizing past with
  | pure a => exact hp
  | throw e => exact hp
  | call o k ih => exact ⟨hp.1, fun r => ih r (hp.2 r)⟩

theorem Traced.attempt {ε' : Type} {Q : List (Answered Reply) → Except ε α → Prop}
    {E' : List (Answered Reply) → ε' → Prop}
    (hp : p.Traced R (fun past a => Q past (.ok a)) (fun past e => Q past (.error e)) past) :
    (p.attempt : Prog ε' Op Reply (Except ε α)).Traced R Q E' past := .mapResult hp

theorem Traced.mapError {ε' : Type} {g : ε → ε'} {E' : List (Answered Reply) → ε' → Prop}
    (hp : p.Traced R Q (fun past e => E' past (g e)) past) : (p.mapError g).Traced R Q E' past := .mapResult hp

/-- A loop whose rounds keep an invariant of the history. -/
theorem Traced.forM {γ : Type} {xs : List γ} {q : γ → Prog ε Op Reply PUnit} {I : List (Answered Reply) → Prop}
    (hq : ∀ x ∈ xs, ∀ past, I past → (q x).Traced R (fun past _ => I past) E past) (hI : I past) :
    (xs.forM q).Traced R (fun past _ => I past) E past := by
  induction xs generalizing past with
  | nil => exact hI
  | cons x xs ih =>
    obtain ⟨hfirst, hrest⟩ := List.forall_mem_cons.mp hq
    exact (hfirst past hI).mono (fun past' _ hI' => ih hrest hI') |>.bind

end Traced

/-! ### Runs -/

variable {world : (o : Op) → σ → Reply o → σ → Prop} {rely : σ → σ → Prop}

/-- What a caller knows of its calls. -/
def history (calls : List (Called Op Reply σ)) : List (Answered Reply) :=
  (calls.map fun c => ⟨c.op, c.reply⟩).reverse

theorem history_cons (c : Called Op Reply σ) (calls : List (Called Op Reply σ)) :
    history (c :: calls) = history calls ++ [⟨c.op, c.reply⟩] := by
  simp [history]

/-- In every run, among others or alone, the calls and the end are as traced. -/
theorem Runs.traced {p : Prog ε Op Reply α} {R : List (Answered Reply) → Op → Prop}
    {Q : List (Answered Reply) → α → Prop} {E : List (Answered Reply) → ε → Prop} {s t : σ}
    {calls : List (Called Op Reply σ)} {result : Except ε α} (h : p.Runs world rely s calls result t)
    (hp : p.Traced R Q E []) :
    (∀ pre c post, calls = pre ++ c :: post → R (history pre) c.op) ∧
      (∀ a, result = .ok a → Q (history calls) a) ∧ ∀ e, result = .error e → E (history calls) e := by
  suffices hpast : ∀ past, p.Traced R Q E past →
      (∀ pre c post, calls = pre ++ c :: post → R (history pre ++ past) c.op) ∧
        (∀ a, result = .ok a → Q (history calls ++ past) a) ∧
        ∀ e, result = .error e → E (history calls ++ past) e by
    simpa using hpast [] hp
  clear hp
  induction h with
  | pure a s =>
    refine fun past hp => ⟨fun pre c post hcalls => absurd hcalls (by simp), ?_, nofun⟩
    rintro _ ⟨⟩
    exact hp
  | throw e s =>
    refine fun past hp => ⟨fun pre c post hcalls => absurd hcalls (by simp), nofun, ?_⟩
    rintro _ ⟨⟩
    exact hp
  | call hrely hworld hrest ih =>
    intro past hp
    obtain ⟨hcalls, hok, herror⟩ := ih _ (hp.2 _)
    simp only [history_cons, List.append_assoc, List.singleton_append]
    refine ⟨fun pre c post heq => ?_, hok, herror⟩
    cases pre with
    | nil =>
      obtain ⟨rfl, -⟩ := List.cons.inj heq
      exact hp.1
    | cons first pre =>
      obtain ⟨rfl, hpost⟩ := List.cons.inj heq
      rw [history_cons, List.append_assoc]
      exact hcalls pre c post hpost

end Prog

/-- The answer to a call of a run. -/
def Called.answered (c : Called Op Reply σ) : Prog.Answered Reply := ⟨c.op, c.reply⟩

section Pool
variable [DecidableEq ι] {c c' : Pool ι ε Op σ Reply α} {i : ι} {R : List (Prog.Answered Reply) → Op → Prop}
  {Q : List (Prog.Answered Reply) → α → Prop} {E : List (Prog.Answered Reply) → ε → Prop}

/-- In an interleaving too a program goes on as traced, after what it knows of its own calls. -/
theorem Pool.Steps.traced_rest {calls : List (ι × Called Op Reply σ)} (h : Pool.Steps world c calls c')
    (hp : (c.progs i).Traced R Q E []) : (c'.progs i).Traced R Q E (Prog.history (ownCalls i calls)) := by
  suffices hpast : ∀ past, (c.progs i).Traced R Q E past →
      (c'.progs i).Traced R Q E (Prog.history (ownCalls i calls) ++ past) by
    simpa using hpast [] hp
  clear hp
  induction h with
  | nil c => exact fun past hp => hp
  | @cons c c' j o k r t calls hprog hworld hrest ih =>
    intro past hp
    by_cases hj : j = i
    · subst hj
      rw [hprog] at hp
      rw [ownCalls_cons_self, Prog.history_cons, List.append_assoc]
      refine ih _ ?_
      show (Function.update c.progs j (k r) j).Traced R Q E _
      rw [Function.update_self]
      exact hp.2 r
    · have hown : ownCalls i ((j, ⟨o, r, c.store, t⟩) :: calls) = ownCalls i calls := by simp [ownCalls, hj]
      rw [hown]
      refine ih past ?_
      show (Function.update c.progs j (k r) i).Traced R Q E _
      rw [Function.update_of_ne (Ne.symm hj)]
      exact hp

/-- A place among the calls of one program is one among all calls. -/
theorem exists_of_ownCalls_eq {calls : List (ι × Called Op Reply σ)} {first last : List (Called Op Reply σ)}
    {d : Called Op Reply σ} (h : ownCalls i calls = first ++ d :: last) :
    ∃ pre post, calls = pre ++ (i, d) :: post ∧ ownCalls i pre = first ∧ ownCalls i post = last := by
  obtain ⟨pre, rest, rfl, hpre, hrest⟩ := List.filterMap_eq_append_iff.mp h
  obtain ⟨others, ⟨j, e⟩, post, rfl, hothers, he, hpost⟩ := List.filterMap_eq_cons_iff.mp hrest
  obtain ⟨hj, rfl⟩ : j = i ∧ e = d := by simpa using he
  refine ⟨pre ++ others, post, by rw [hj, List.append_assoc], ?_, hpost⟩
  have hnone : ownCalls i others = [] := List.filterMap_eq_nil_iff.mpr hothers
  rw [ownCalls_append, hnone, List.append_nil]
  exact hpre

theorem mem_history_ownCalls {calls : List (ι × Called Op Reply σ)} {answered : Prog.Answered Reply} :
    answered ∈ Prog.history (ownCalls i calls) ↔ ∃ d, (i, d) ∈ calls ∧ d.answered = answered := by
  simp [Prog.history, mem_ownCalls, Called.answered]

/-- A place in what one program knows is one among all calls. -/
theorem exists_of_history_eq {calls : List (ι × Called Op Reply σ)} {last first : List (Prog.Answered Reply)}
    {answered : Prog.Answered Reply} (h : Prog.history (ownCalls i calls) = last ++ answered :: first) :
    ∃ pre d post, calls = pre ++ (i, d) :: post ∧ d.answered = answered ∧
      Prog.history (ownCalls i pre) = first ∧ Prog.history (ownCalls i post) = last := by
  have hmap : (ownCalls i calls).map Called.answered = first.reverse ++ answered :: last.reverse := by
    have hreverse : ((ownCalls i calls).map Called.answered).reverse = last ++ answered :: first := h
    rw [List.reverse_eq_iff.mp hreverse]
    simp
  obtain ⟨own, rest, hown, hfirst, hrest⟩ := List.map_eq_append_iff.mp hmap
  obtain ⟨d, own', rfl, hd, hlast⟩ := List.map_eq_cons_iff.mp hrest
  obtain ⟨pre, post, rfl, rfl, rfl⟩ := exists_of_ownCalls_eq hown
  refine ⟨pre, d, post, rfl, hd, ?_, ?_⟩
  · exact List.reverse_eq_iff.mpr hfirst
  · exact List.reverse_eq_iff.mpr hlast

theorem Pool.Steps.traced {d : Called Op Reply σ} {pre post : List (ι × Called Op Reply σ)}
    (h : Pool.Steps world c (pre ++ (i, d) :: post) c') (hp : (c.progs i).Traced R Q E []) :
    R (Prog.history (ownCalls i pre)) d.op := by
  obtain ⟨mid, hpre, hpost⟩ := h.split
  have hrest := hpre.traced_rest hp
  cases hpost with
  | cons hprog hworld hlater =>
    rw [hprog] at hrest
    exact hrest.1

end Pool

end Tulpje.Lib
