import Mathlib.Logic.Function.Basic
import Mathlib.Data.List.Basic

/-!
# Programs that issue commands

A program of a client that talks to a store: it returns a value, fails, or issues one command and goes
on with the reply. `exec` runs it alone against a store whose commands mean `eval`.

`All P E` bounds the commands a program can issue and its failures, whatever the replies are; a view of
the store that these commands keep is kept by the program (`exec_keeps`). `Acts v f` says that runs that
do not fail change the view `v` by `f`.
-/

namespace Tulpje.Lib

variable {ε Op σ α β : Type} {Reply : Op → Type}

inductive Prog (ε Op : Type) (Reply : Op → Type) (α : Type) : Type
  | pure (a : α)
  | throw (e : ε)
  | call (o : Op) (k : Reply o → Prog ε Op Reply α)

namespace Prog

def bind : Prog ε Op Reply α → (α → Prog ε Op Reply β) → Prog ε Op Reply β
  | .pure a, f => f a
  | .throw e, _ => .throw e
  | .call o k, f => .call o fun r => (k r).bind f

instance : Monad (Prog ε Op Reply) where
  pure := .pure
  bind := .bind

theorem bind_pure_self (p : Prog ε Op Reply α) : p.bind .pure = p := by
  induction p with
  | pure a => rfl
  | throw e => rfl
  | call o k ih => exact congrArg (call o) (funext ih)

theorem bind_bind {γ : Type} (p : Prog ε Op Reply α) (f : α → Prog ε Op Reply β)
    (g : β → Prog ε Op Reply γ) : (p.bind f).bind g = p.bind fun a => (f a).bind g := by
  induction p with
  | pure a => rfl
  | throw e => rfl
  | call o k ih => exact congrArg (call o) (funext ih)

instance : LawfulMonad (Prog ε Op Reply) :=
  LawfulMonad.mk' _ bind_pure_self (fun _ _ => rfl) bind_bind

/-- The program that issues one command and returns its reply. -/
def send (o : Op) : Prog ε Op Reply (Reply o) := .call o .pure

/-! ### Running a program alone -/

variable (eval : (o : Op) → σ → Reply o × σ)

def exec : Prog ε Op Reply α → σ → Except ε α × σ
  | .pure a, s => (.ok a, s)
  | .throw e, s => (.error e, s)
  | .call o k, s => (k (eval o s).1).exec (eval o s).2

/-- The commands that a program issues when it runs alone. -/
def commands : Prog ε Op Reply α → σ → List Op
  | .call o k, s => o :: (k (eval o s).1).commands (eval o s).2
  | _, _ => []

@[simp] theorem exec_pure (a : α) (s : σ) :
    (Pure.pure a : Prog ε Op Reply α).exec eval s = (.ok a, s) := rfl

@[simp] theorem exec_throw (e : ε) (s : σ) :
    (throw e : Prog ε Op Reply α).exec eval s = (.error e, s) := rfl

@[simp] theorem exec_send (o : Op) (s : σ) :
    (send o : Prog ε Op Reply (Reply o)).exec eval s = (.ok (eval o s).1, (eval o s).2) := rfl

theorem exec_bind (p : Prog ε Op Reply α) (f : α → Prog ε Op Reply β) (s : σ) :
    (p >>= f).exec eval s =
      match p.exec eval s with
      | (.ok a, t) => (f a).exec eval t
      | (.error e, t) => (.error e, t) := by
  show (p.bind f).exec eval s = _
  induction p generalizing s with
  | pure a => rfl
  | throw e => rfl
  | call o k ih => exact ih _ _

variable {eval} in
theorem exec_bind_ok {p : Prog ε Op Reply α} {s t : σ} {a : α} (hp : p.exec eval s = (.ok a, t))
    (f : α → Prog ε Op Reply β) : (p >>= f).exec eval s = (f a).exec eval t := by
  rw [exec_bind, hp]

variable {eval} in
/-- A loop whose rounds return. -/
theorem exec_forM {γ : Type} {xs : List γ} {p : γ → Prog ε Op Reply PUnit} {step : σ → γ → σ}
    (hp : ∀ x ∈ xs, ∀ s, (p x).exec eval s = (.ok ⟨⟩, step s x)) (s : σ) :
    (xs.forM p).exec eval s = (.ok ⟨⟩, xs.foldl step s) := by
  induction xs generalizing s with
  | nil => rfl
  | cons x xs ih =>
    obtain ⟨hfirst, hrest⟩ := List.forall_mem_cons.mp hp
    exact (exec_bind_ok (hfirst s) _).trans (ih hrest _)

variable {eval} in
/-- Commands whose replies do not depend on a log, and that only append to it. -/
theorem exec_append {ρ : Type} {eval : (o : Op) → List ρ → Reply o × List ρ}
    (h : ∀ o log, eval o log = ((eval o []).1, log ++ (eval o []).2)) (p : Prog ε Op Reply α) (log : List ρ) :
    p.exec eval log = ((p.exec eval []).1, log ++ (p.exec eval []).2) := by
  induction p generalizing log with
  | pure a => simp [exec]
  | throw e => simp [exec]
  | call o k ih =>
    show (k (eval o log).1).exec eval (eval o log).2 = _
    rw [h o log, ih]
    dsimp only [exec]
    rw [ih _ (eval o []).2]
    simp

/-! ### The commands a program can issue -/

/-- Every command of the program meets `P` and every failure `E`. -/
def All (P : Op → Prop) (E : ε → Prop) : Prog ε Op Reply α → Prop
  | .pure _ => True
  | .throw e => E e
  | .call o k => P o ∧ ∀ r, (k r).All P E

variable {P Q : Op → Prop} {E : ε → Prop}

theorem All.pure (a : α) : (Pure.pure a : Prog ε Op Reply α).All P E := trivial

theorem All.send {o : Op} (h : P o) : (send o : Prog ε Op Reply (Reply o)).All P E :=
  ⟨h, fun _ => trivial⟩

theorem All.bind {p : Prog ε Op Reply α} {f : α → Prog ε Op Reply β} (hp : p.All P E)
    (hf : ∀ a, (f a).All P E) : (p >>= f).All P E := by
  show (p.bind f).All P E
  induction p with
  | pure a => exact hf a
  | throw e => exact hp
  | call o k ih => exact ⟨hp.1, fun r => ih r (hp.2 r)⟩

theorem All.forM {γ : Type} {xs : List γ} {p : γ → Prog ε Op Reply PUnit} (hp : ∀ x ∈ xs, (p x).All P E) :
    (xs.forM p).All P E := by
  induction xs with
  | nil => trivial
  | cons x xs ih =>
    obtain ⟨hfirst, hrest⟩ := List.forall_mem_cons.mp hp
    exact hfirst.bind fun _ => ih hrest

theorem All.mono {E' : ε → Prop} {p : Prog ε Op Reply α} (hp : p.All P E) (h : ∀ o, P o → Q o)
    (hE : ∀ e, E e → E' e) : p.All Q E' := by
  induction p with
  | pure a => trivial
  | throw e => exact hE e hp
  | call o k ih => exact ⟨h o hp.1, fun r => ih r (hp.2 r)⟩

theorem All.imp {p : Prog ε Op Reply α} (hp : p.All P E) (h : ∀ o, P o → Q o) : p.All Q E :=
  hp.mono h fun _ => id

variable {eval}

/-- A view that every issued command keeps is kept by the program, whether or not it fails. -/
theorem exec_keeps {p : Prog ε Op Reply α} {v : σ → β}
    (hp : p.All (fun o => ∀ s, v (eval o s).2 = v s) E) (s : σ) : v (p.exec eval s).2 = v s := by
  induction p generalizing s with
  | pure a => rfl
  | throw e => rfl
  | call o k ih => exact (ih _ (hp.2 _) _).trans (hp.1 s)

/-- What a program returns, and the view that its commands look at and change, depend on this view only. -/
theorem exec_congr {p : Prog ε Op Reply α} {v : σ → β}
    (hp : p.All (fun o => ∀ s t, v s = v t →
      (eval o s).1 = (eval o t).1 ∧ v (eval o s).2 = v (eval o t).2) E) {s t : σ} (h : v s = v t) :
    (p.exec eval s).1 = (p.exec eval t).1 ∧ v (p.exec eval s).2 = v (p.exec eval t).2 := by
  induction p generalizing s t with
  | pure a => exact ⟨rfl, h⟩
  | throw e => exact ⟨rfl, h⟩
  | call o k ih =>
    obtain ⟨hreply, hview⟩ := hp.1 s t h
    have hrest := ih (eval o s).1 (hp.2 _) hview
    rw [hreply] at hrest
    show ((k (eval o s).1).exec eval _).1 = _ ∧ v ((k (eval o s).1).exec eval _).2 = _
    rw [hreply]
    exact hrest

/-! ### The commands of a run -/

variable (eval) in
/-- Every command that the program issues when it runs alone from the state meets `P`. -/
def Issues (P : Op → Prop) (p : Prog ε Op Reply α) (s : σ) : Prop := ∀ o ∈ p.commands eval s, P o

theorem Issues.of_all {p : Prog ε Op Reply α} (hp : p.All P E) (s : σ) : p.Issues eval P s := by
  induction p generalizing s with
  | pure a => exact fun o ho => (List.not_mem_nil ho).elim
  | throw e => exact fun o ho => (List.not_mem_nil ho).elim
  | call o k ih => exact List.forall_mem_cons.mpr ⟨hp.1, ih _ (hp.2 _) _⟩

theorem Issues.bind {p : Prog ε Op Reply α} {f : α → Prog ε Op Reply β} {s : σ} (hp : p.Issues eval P s)
    (hf : ∀ a t, p.exec eval s = (.ok a, t) → (f a).Issues eval P t) : (p >>= f).Issues eval P s := by
  show (p.bind f).Issues eval P s
  induction p generalizing s with
  | pure a => exact hf a s rfl
  | throw e => exact hp
  | call o k ih =>
    obtain ⟨hfirst, hrest⟩ := List.forall_mem_cons.mp hp
    exact List.forall_mem_cons.mpr ⟨hfirst, ih _ hrest hf⟩

/-! ### Runs that do not fail -/

theorem exec_bind_eq_ok {p : Prog ε Op Reply α} {f : α → Prog ε Op Reply β} {s u : σ} {b : β} :
    (p >>= f).exec eval s = (.ok b, u) ↔
      ∃ a t, p.exec eval s = (.ok a, t) ∧ (f a).exec eval t = (.ok b, u) := by
  rw [exec_bind]
  constructor
  · intro h
    rcases hp : p.exec eval s with ⟨_ | a, t⟩
    · rw [hp] at h
      cases h
    · rw [hp] at h
      exact ⟨a, t, rfl, h⟩
  · rintro ⟨a, t, hp, hf⟩
    rw [hp]
    exact hf

/-- A program that cannot fail returns. -/
theorem exec_ok_of_all {p : Prog ε Op Reply α} (hp : p.All P fun _ => False) (s : σ) :
    ∃ a, p.exec eval s = (.ok a, (p.exec eval s).2) := by
  induction p generalizing s with
  | pure a => exact ⟨a, rfl⟩
  | throw e => exact hp.elim
  | call o k ih => exact ih _ (hp.2 _) _

variable (eval) in
/-- Every run that does not fail changes the view `v` by `f`. -/
def Acts (v : σ → β) (f : β → β) (p : Prog ε Op Reply α) : Prop :=
  ∀ s a t, p.exec eval s = (.ok a, t) → v t = f (v s)

variable {v : σ → β} {f g : β → β}

theorem Acts.bind {γ : Type} {p : Prog ε Op Reply α} {q : α → Prog ε Op Reply γ}
    (hp : Acts eval v f p) (hq : ∀ a, Acts eval v g (q a)) : Acts eval v (g ∘ f) (p >>= q) := by
  intro s b u hexec
  obtain ⟨a, t, hexecp, hexecq⟩ := exec_bind_eq_ok.mp hexec
  rw [hq a t b u hexecq, hp s a t hexecp, Function.comp_apply]

/-- A program that keeps the view, before another one. -/
theorem Acts.keep_bind {γ : Type} {p : Prog ε Op Reply α} {q : α → Prog ε Op Reply γ}
    (hp : Acts eval v id p) (hq : ∀ a, Acts eval v f (q a)) : Acts eval v f (p >>= q) :=
  hp.bind hq

/-- A program that issues only commands that keep the view. -/
theorem Acts.of_all {p : Prog ε Op Reply α} (hp : p.All (fun o => ∀ s, v (eval o s).2 = v s) E) :
    Acts eval v id p := by
  intro s a t hexec
  have hv := exec_keeps hp s
  rwa [hexec] at hv

theorem Acts.pure (a : α) : Acts eval v id (Pure.pure a : Prog ε Op Reply α) :=
  Acts.of_all (show All _ (fun _ => False) _ from All.pure a)

theorem Acts.forM {γ : Type} {xs : List γ} {p : γ → Prog ε Op Reply PUnit} (step : β → γ → β)
    (hp : ∀ x ∈ xs, Acts eval v (fun b => step b x) (p x)) :
    Acts eval v (fun b => xs.foldl step b) (xs.forM p) := by
  induction xs with
  | nil => exact Acts.pure _
  | cons x xs ih =>
    have hfirst := hp x (List.mem_cons_self ..)
    exact hfirst.bind fun _ => ih fun y hy => hp y (List.mem_cons_of_mem _ hy)

theorem Acts.forM_keep {γ : Type} {xs : List γ} {p : γ → Prog ε Op Reply PUnit}
    (hp : ∀ x ∈ xs, Acts eval v id (p x)) : Acts eval v id (xs.forM p) := by
  induction xs with
  | nil => exact Acts.pure _
  | cons x xs ih =>
    have hfirst := hp x (List.mem_cons_self ..)
    exact hfirst.keep_bind fun _ => ih fun y hy => hp y (List.mem_cons_of_mem _ hy)

end Prog

end Tulpje.Lib
