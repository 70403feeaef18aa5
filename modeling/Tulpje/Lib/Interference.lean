import Mathlib.Data.List.Basic
import Tulpje.Lib.Interleaving

/-!
# Programs under interference

The world answers each command of a program with one of several replies and changes the state. Before each
command others may have changed the state too, as `rely` allows: `Runs` is about a run of a program to its end
in such surroundings. `calls` lists what it called, with the reply and the states before and after.

`Pool.Steps` runs any number of programs on one state, command by command in any order. A program of the pool
that has come to its end has run in the sense of `Runs`, if the commands of the others keep to `rely`
(`Pool.Steps.runs`).
-/

namespace Tulpje.Lib

variable {ε ε' Op σ α β ι : Type} {Reply : Op → Type}

/-- A command, its reply, and the states around it. -/
structure Called (Op : Type) (Reply : Op → Type) (σ : Type) where
  op : Op
  reply : Reply op
  before : σ
  after : σ

namespace Prog

def ofExcept : Except ε α → Prog ε Op Reply α
  | .ok a => .pure a
  | .error e => .throw e

/-- The program with another result. -/
def mapResult (g : Except ε α → Except ε' β) : Prog ε Op Reply α → Prog ε' Op Reply β
  | .pure a => ofExcept (g (.ok a))
  | .throw e => ofExcept (g (.error e))
  | .call o k => .call o fun r => (k r).mapResult g

/-- Errors become values. -/
def attempt (p : Prog ε Op Reply α) : Prog ε' Op Reply (Except ε α) := p.mapResult .ok

def mapError (g : ε → ε') (p : Prog ε Op Reply α) : Prog ε' Op Reply α := p.mapResult (Except.mapError g)

section All
variable {P : Op → Prop} {E : ε → Prop} {E' : ε' → Prop} {p : Prog ε Op Reply α}

theorem All.ofExcept (x : Except ε α) : (ofExcept x : Prog ε Op Reply α).All P fun _ => True := by
  cases x <;> trivial

theorem All.mapResult {g : Except ε α → Except ε' β} (hp : p.All P E) (hg : ∀ r e, g r = .error e → E' e) :
    (p.mapResult g).All P E' := by
  have hresult : ∀ r, (Prog.ofExcept (g r) : Prog ε' Op Reply β).All P E' := by
    intro r
    cases hr : g r with
    | ok b => trivial
    | error e => exact hg r e hr
  induction p with
  | pure a => exact hresult (.ok a)
  | throw e => exact hresult (.error e)
  | call o k ih => exact ⟨hp.1, fun r => ih r (hp.2 r)⟩

theorem All.attempt (hp : p.All P E) : (p.attempt : Prog ε' Op Reply (Except ε α)).All P E' :=
  hp.mapResult nofun

theorem All.mapError {g : ε → ε'} (hp : p.All P E) : (p.mapError g).All P fun _ => True :=
  hp.mapResult fun _ _ _ => trivial

/-- What follows an attempt is looked at for the errors that can come. -/
theorem All.attempt_bind {f : Except ε α → Prog ε' Op Reply β} (hp : p.All P E)
    (hok : ∀ a, (f (.ok a)).All P E') (herror : ∀ e, E e → (f (.error e)).All P E') :
    (p.attempt >>= f).All P E' := by
  show (p.attempt.bind f).All P E'
  induction p with
  | pure a => exact hok a
  | throw e => exact herror e hp
  | call o k ih => exact ⟨hp.1, fun r => ih r (hp.2 r)⟩

/-- An error that is only logged is none for what follows. -/
theorem all_attempt_ignore (p : Prog ε Op Reply α) :
    (do let _ ← p.attempt; Pure.pure () : Prog ε' Op Reply Unit).All (fun _ => True) fun _ => False := by
  show (p.attempt.bind fun _ => .pure ()).All _ _
  induction p with
  | pure a => trivial
  | throw e => trivial
  | call o k ih => exact ⟨trivial, ih⟩

end All

/-! ### Calls that cannot be avoided -/

section Reaches
variable (ok : (o : Op) → Reply o → Prop) (P : Op → Prop)

/-- With such replies the program comes to a call in `P`, or ends in `Q` or with an error in `E`. -/
def Reaches (Q : α → Prop) (E : ε → Prop) : Prog ε Op Reply α → Prop
  | .pure a => Q a
  | .throw e => E e
  | .call o k => P o ∨ ∀ r, ok o r → (k r).Reaches Q E

variable {ok P} {Q : α → Prop} {E : ε → Prop} {p : Prog ε Op Reply α}

theorem Reaches.send {o : Op} {Q : Reply o → Prop} (h : ∀ r, ok o r → Q r) :
    (send o : Prog ε Op Reply (Reply o)).Reaches ok P Q E := .inr h

theorem Reaches.bind {f : α → Prog ε Op Reply β} {Q : β → Prop}
    (hp : p.Reaches ok P (fun a => (f a).Reaches ok P Q E) E) : (p >>= f).Reaches ok P Q E := by
  show (p.bind f).Reaches ok P Q E
  induction p with
  | pure a => exact hp
  | throw e => exact hp
  | call o k ih => exact hp.imp_right fun hrest r hr => ih r (hrest r hr)

theorem Reaches.mapResult {g : Except ε α → Except ε' β} {Q : β → Prop} {E : ε' → Prop}
    (hp : p.Reaches ok P (fun a => (ofExcept (g (.ok a))).Reaches ok P Q E) fun e =>
      (ofExcept (g (.error e))).Reaches ok P Q E) : (p.mapResult g).Reaches ok P Q E := by
  induction p with
  | pure a => exact hp
  | throw e => exact hp
  | call o k ih => exact hp.imp_right fun hrest r hr => ih r (hrest r hr)

theorem Reaches.attempt {Q : Except ε α → Prop} {E' : ε' → Prop}
    (hp : p.Reaches ok P (fun a => Q (.ok a)) fun e => Q (.error e)) :
    (p.attempt : Prog ε' Op Reply (Except ε α)).Reaches ok P Q E' := .mapResult hp

theorem Reaches.mapError {g : ε → ε'} {E : ε' → Prop} (hp : p.Reaches ok P Q fun e => E (g e)) :
    (p.mapError g).Reaches ok P Q E := .mapResult hp

theorem Reaches.trivial (p : Prog ε Op Reply α) : p.Reaches ok P (fun _ => True) fun _ => True := by
  induction p with
  | pure a => exact True.intro
  | throw e => exact True.intro
  | call o k ih => exact .inr fun r _ => ih r

theorem Reaches.mono {Q' : α → Prop} {E' : ε → Prop} (hp : p.Reaches ok P Q E) (hQ : ∀ a, Q a → Q' a)
    (hE : ∀ e, E e → E' e) : p.Reaches ok P Q' E' := by
  induction p with
  | pure a => exact hQ a hp
  | throw e => exact hE e hp
  | call o k ih => exact hp.imp_right fun hrest r hr => ih r (hrest r hr)

end Reaches

/-! ### Calls that come after others -/

section After
variable (A : (o : Op) → Reply o → Prop) (B : Op → Prop)

/-- No call in `B` comes before one that was answered as in `A`. -/
def After : Prog ε Op Reply α → Prop
  | .pure _ | .throw _ => True
  | .call o k => ¬ B o ∧ ∀ r, A o r ∨ (k r).After

variable {A B} {E : ε → Prop} {p : Prog ε Op Reply α}

theorem After.of_all (h : p.All (fun o => ¬ B o) E) : p.After A B := by
  induction p with
  | pure a => trivial
  | throw e => trivial
  | call o k ih => exact ⟨h.1, fun r => .inr (ih r (h.2 r))⟩

theorem After.bind {f : α → Prog ε Op Reply β} (hp : p.All (fun o => ¬ B o) E) (hf : ∀ a, (f a).After A B) :
    (p >>= f).After A B := by
  show (p.bind f).After A B
  induction p with
  | pure a => exact hf a
  | throw e => trivial
  | call o k ih => exact ⟨hp.1, fun r => .inr (ih r (hp.2 r))⟩

theorem After.call {o : Op} {k : Reply o → Prog ε Op Reply α} (ho : ¬ B o) (hk : ∀ r, A o r ∨ (k r).After A B) :
    (Prog.call o k).After A B := ⟨ho, hk⟩

end After

variable (world : (o : Op) → σ → Reply o → σ → Prop) (rely : σ → σ → Prop)

inductive Runs : Prog ε Op Reply α → σ → List (Called Op Reply σ) → Except ε α → σ → Prop
  | pure (a : α) (s : σ) : Runs (.pure a) s [] (.ok a) s
  | throw (e : ε) (s : σ) : Runs (.throw e) s [] (.error e) s
  | call {o : Op} {k : Reply o → Prog ε Op Reply α} {s u v t : σ} {r : Reply o}
      {calls : List (Called Op Reply σ)} {result : Except ε α} :
      rely s u → world o u r v → Runs (k r) v calls result t →
        Runs (.call o k) s (⟨o, r, u, v⟩ :: calls) result t

/-- The program makes these calls and goes on as another one. -/
inductive Advances : Prog ε Op Reply α → σ → List (Called Op Reply σ) → Prog ε Op Reply α → σ → Prop
  | nil (p : Prog ε Op Reply α) (s : σ) : Advances p s [] p s
  | cons {o : Op} {k : Reply o → Prog ε Op Reply α} {q : Prog ε Op Reply α} {s t u : σ} {r : Reply o}
      {calls : List (Called Op Reply σ)} :
      world o s r t → Advances (k r) t calls q u → Advances (.call o k) s (⟨o, r, s, t⟩ :: calls) q u

variable {world rely} {p : Prog ε Op Reply α} {f : α → Prog ε Op Reply β} {s t : σ}
  {calls : List (Called Op Reply σ)}

theorem runs_pure {a : α} {result : Except ε α} :
    (Pure.pure a : Prog ε Op Reply α).Runs world rely s calls result t ↔
      calls = [] ∧ result = .ok a ∧ t = s := by
  constructor
  · rintro ⟨⟩
    exact ⟨rfl, rfl, rfl⟩
  · rintro ⟨rfl, rfl, rfl⟩
    exact Runs.pure a t

theorem runs_throw {e : ε} {result : Except ε α} :
    (Prog.throw e : Prog ε Op Reply α).Runs world rely s calls result t ↔
      calls = [] ∧ result = .error e ∧ t = s := by
  constructor
  · rintro ⟨⟩
    exact ⟨rfl, rfl, rfl⟩
  · rintro ⟨rfl, rfl, rfl⟩
    exact Runs.throw e t

theorem runs_ofExcept {x result : Except ε α} :
    (ofExcept x : Prog ε Op Reply α).Runs world rely s calls result t ↔ calls = [] ∧ result = x ∧ t = s := by
  cases x with
  | ok a => exact runs_pure
  | error e => exact runs_throw

theorem runs_send {o : Op} {result : Except ε (Reply o)} :
    (send o : Prog ε Op Reply (Reply o)).Runs world rely s calls result t ↔
      ∃ u r, rely s u ∧ world o u r t ∧ calls = [⟨o, r, u, t⟩] ∧ result = .ok r := by
  constructor
  · intro h
    cases h with
    | @call _ _ _ u _ _ r _ _ hrely hworld hrest =>
      obtain ⟨rfl, rfl, rfl⟩ := runs_pure.mp hrest
      exact ⟨u, r, hrely, hworld, rfl, rfl⟩
  · rintro ⟨u, r, hrely, hworld, rfl, rfl⟩
    exact .call hrely hworld (.pure r t)

/-- A run of two programs in a row is a run of the first that fails, or one of both. -/
theorem runs_bind {result : Except ε β} : (p >>= f).Runs world rely s calls result t ↔
    (∃ e, result = .error e ∧ p.Runs world rely s calls (.error e) t) ∨
      ∃ a u cs ds, calls = cs ++ ds ∧ p.Runs world rely s cs (.ok a) u ∧
        (f a).Runs world rely u ds result t := by
  show (p.bind f).Runs world rely s calls result t ↔ _
  induction p generalizing s calls with
  | pure a =>
    constructor
    · exact fun h => .inr ⟨a, s, [], calls, rfl, .pure a s, h⟩
    · rintro (⟨e, -, ⟨⟩⟩ | ⟨a, u, cs, ds, rfl, ⟨⟩, h⟩)
      exact h
  | throw e =>
    constructor
    · intro h
      obtain ⟨rfl, rfl, rfl⟩ := runs_throw.mp h
      exact .inl ⟨e, rfl, .throw e t⟩
    · rintro (⟨e, rfl, ⟨⟩⟩ | ⟨a, u, cs, ds, rfl, ⟨⟩, h⟩)
      exact .throw e t
  | call o k ih =>
    constructor
    · intro h
      cases h with
      | @call _ _ _ u v _ r calls' _ hrely hworld hrest =>
        rcases (ih r).mp hrest with ⟨e, rfl, hp⟩ | ⟨a, w, cs, ds, rfl, hp, hf⟩
        · exact .inl ⟨e, rfl, .call hrely hworld hp⟩
        · exact .inr ⟨a, w, _, ds, rfl, .call hrely hworld hp, hf⟩
    · rintro (⟨e, rfl, hp⟩ | ⟨a, w, cs, ds, rfl, hp, hf⟩)
      · cases hp with
        | call hrely hworld hrest => exact .call hrely hworld ((ih _).mpr (.inl ⟨e, rfl, hrest⟩))
      · cases hp with
        | call hrely hworld hrest =>
          exact .call hrely hworld ((ih _).mpr (.inr ⟨a, w, _, ds, rfl, hrest, hf⟩))

theorem runs_mapResult {g : Except ε α → Except ε' β} {result : Except ε' β} :
    (p.mapResult g).Runs world rely s calls result t ↔ ∃ r, result = g r ∧ p.Runs world rely s calls r t := by
  induction p generalizing s calls with
  | pure a =>
    constructor
    · intro h
      obtain ⟨rfl, rfl, rfl⟩ := runs_ofExcept.mp h
      exact ⟨.ok a, rfl, .pure a t⟩
    · rintro ⟨r, rfl, ⟨⟩⟩
      exact runs_ofExcept.mpr ⟨rfl, rfl, rfl⟩
  | throw e =>
    constructor
    · intro h
      obtain ⟨rfl, rfl, rfl⟩ := runs_ofExcept.mp h
      exact ⟨.error e, rfl, .throw e t⟩
    · rintro ⟨r, rfl, ⟨⟩⟩
      exact runs_ofExcept.mpr ⟨rfl, rfl, rfl⟩
  | call o k ih =>
    constructor
    · intro h
      cases h with
      | call hrely hworld hrest =>
        obtain ⟨r, rfl, hp⟩ := (ih _).mp hrest
        exact ⟨r, rfl, .call hrely hworld hp⟩
    · rintro ⟨r, rfl, hp⟩
      cases hp with
      | call hrely hworld hrest => exact .call hrely hworld ((ih _).mpr ⟨r, rfl, hrest⟩)

theorem runs_attempt {result : Except ε' (Except ε α)} :
    (p.attempt : Prog ε' Op Reply (Except ε α)).Runs world rely s calls result t ↔
      ∃ r, result = .ok r ∧ p.Runs world rely s calls r t := runs_mapResult

theorem runs_mapError {g : ε → ε'} {result : Except ε' α} :
    (p.mapError g).Runs world rely s calls result t ↔
      ∃ r, result = r.mapError g ∧ p.Runs world rely s calls r t := runs_mapResult

/-- An error that is only logged. -/
theorem runs_attempt_ignore {result : Except ε' Unit} :
    (do let _ ← p.attempt; Pure.pure () : Prog ε' Op Reply Unit).Runs world rely s calls result t ↔
      result = .ok () ∧ ∃ r, p.Runs world rely s calls r t := by
  constructor
  · intro h
    rcases runs_bind.mp h with ⟨e, rfl, hattempt⟩ | ⟨_, u, cs, ds, rfl, hattempt, hpure⟩
    · obtain ⟨r, herror, -⟩ := runs_attempt.mp hattempt
      cases herror
    · obtain ⟨r, -, hp⟩ := runs_attempt.mp hattempt
      obtain ⟨rfl, rfl, rfl⟩ := runs_pure.mp hpure
      rw [List.append_nil]
      exact ⟨rfl, r, hp⟩
  · rintro ⟨rfl, r, hp⟩
    refine runs_bind.mpr (.inr ⟨r, t, calls, [], (List.append_nil _).symm, ?_, .pure () t⟩)
    exact runs_attempt.mpr ⟨r, rfl, hp⟩

theorem Runs.all {P : Op → Prop} {E : ε → Prop} {result : Except ε α}
    (h : p.Runs world rely s calls result t) (hp : p.All P E) : ∀ c ∈ calls, P c.op := by
  induction h with
  | pure a s => simp
  | throw e s => simp
  | call hrely hworld hrest ih =>
    refine List.forall_mem_cons.mpr ⟨hp.1, ih (hp.2 _)⟩

theorem Runs.not_error {P : Op → Prop} {result : Except ε α} (h : p.Runs world rely s calls result t)
    (hp : p.All P fun _ => False) : ∃ a, result = .ok a := by
  induction h with
  | pure a s => exact ⟨a, rfl⟩
  | throw e s => exact hp.elim
  | call hrely hworld hrest ih => exact ih (hp.2 _)

theorem Runs.reaches_or {ok : (o : Op) → Reply o → Prop} {P : Op → Prop} {Q : α → Prop} {E : ε → Prop}
    {result : Except ε α} (h : p.Runs world rely s calls result t) (hp : p.Reaches ok P Q E)
    (hok : ∀ c ∈ calls, ok c.op c.reply) :
    (∃ c ∈ calls, P c.op) ∨ (∃ a, result = .ok a ∧ Q a) ∨ ∃ e, result = .error e ∧ E e := by
  induction h with
  | pure a s => exact .inr (.inl ⟨a, rfl, hp⟩)
  | throw e s => exact .inr (.inr ⟨e, rfl, hp⟩)
  | call hrely hworld hrest ih =>
    obtain ⟨hfirst, hok⟩ := List.forall_mem_cons.mp hok
    rcases hp with hP | hp
    · exact .inl ⟨_, List.mem_cons_self, hP⟩
    · refine (ih (hp _ hfirst) hok).imp_left ?_
      rintro ⟨c, hc, hP⟩
      exact ⟨c, List.mem_cons_of_mem _ hc, hP⟩

theorem Runs.reaches {ok : (o : Op) → Reply o → Prop} {P : Op → Prop} {result : Except ε α}
    (h : p.Runs world rely s calls result t) (hp : p.Reaches ok P (fun _ => False) fun _ => False)
    (hok : ∀ c ∈ calls, ok c.op c.reply) : ∃ c ∈ calls, P c.op := by
  rcases h.reaches_or hp hok with hsome | ⟨_, -, hfalse⟩ | ⟨_, -, hfalse⟩
  · exact hsome
  · exact hfalse.elim
  · exact hfalse.elim

/-- A run to the end without others. -/
theorem Runs.advances {result : Except ε α} (h : p.Runs world Eq s calls result t) :
    p.Advances world s calls (.ofExcept result) t := by
  induction h with
  | pure a s => exact .nil _ s
  | throw e s => exact .nil _ s
  | call hrely hworld hrest ih =>
    subst hrely
    exact .cons hworld ih

theorem Advances.append {q q' : Prog ε Op Reply α} {u : σ} {cs ds : List (Called Op Reply σ)}
    (h : p.Advances world s cs q t) (h' : q.Advances world t ds q' u) : p.Advances world s (cs ++ ds) q' u := by
  induction h with
  | nil p s => exact h'
  | cons hworld hrest ih => exact .cons hworld (ih h')

theorem Runs.answered {result : Except ε α} (h : p.Runs world rely s calls result t) :
    ∀ c ∈ calls, world c.op c.before c.reply c.after := by
  induction h with
  | pure a s => simp
  | throw e s => simp
  | call hrely hworld hrest ih => exact List.forall_mem_cons.mpr ⟨hworld, ih⟩

/-- A view that neither the others change nor the calls of the run. -/
theorem Runs.keeps {v : σ → β} {result : Except ε α} (h : p.Runs world rely s calls result t)
    (hrely : ∀ s t, rely s t → v t = v s) (hcalls : ∀ c ∈ calls, v c.after = v c.before) :
    v t = v s ∧ ∀ c ∈ calls, v c.before = v s := by
  induction h with
  | pure a s => simp
  | throw e s => simp
  | @call o k s u w t r calls result hu hw hrest ih =>
    obtain ⟨hfirst, hcalls⟩ := List.forall_mem_cons.mp hcalls
    obtain ⟨ht, hrest⟩ := ih hcalls
    have hbefore : v u = v s := hrely s u hu
    have hafter : v w = v s := hfirst.trans hbefore
    refine ⟨ht.trans hafter, List.forall_mem_cons.mpr ⟨hbefore, fun c hc => ?_⟩⟩
    exact (hrest c hc).trans hafter

theorem Runs.preserves {Q : σ → Prop} {result : Except ε α} (h : p.Runs world rely s calls result t)
    (hrely : ∀ s t, rely s t → Q s → Q t) (hcalls : ∀ c ∈ calls, Q c.before → Q c.after) (hs : Q s) : Q t := by
  induction h with
  | pure a s => exact hs
  | throw e s => exact hs
  | @call o k s u w t r calls result hu hw hrest ih =>
    obtain ⟨hfirst, hcalls⟩ := List.forall_mem_cons.mp hcalls
    exact ih hcalls (hfirst (hrely s u hu hs))

/-- What holds after one of the calls, and which the later ones keep. -/
theorem Runs.establishes {Q : σ → Prop} {result : Except ε α} (h : p.Runs world rely s calls result t)
    (hrely : ∀ s t, rely s t → Q s → Q t) (hcalls : ∀ c ∈ calls, Q c.before → Q c.after)
    (hsome : ∃ c ∈ calls, Q c.after) : Q t := by
  induction h with
  | pure a s => simp at hsome
  | throw e s => simp at hsome
  | @call o k s u w t r calls result hu hw hrest ih =>
    obtain ⟨-, hcalls⟩ := List.forall_mem_cons.mp hcalls
    obtain ⟨c, hc, hQ⟩ := hsome
    rcases List.mem_cons.mp hc with rfl | hc
    · exact hrest.preserves hrely hcalls hQ
    · exact ih hcalls ⟨c, hc, hQ⟩

/-- Where two lists meet, an element lies in the one or the other. -/
theorem append_cons_eq_append {γ : Type} {c : γ} {pre post cs ds : List γ} (h : pre ++ c :: post = cs ++ ds) :
    (∃ mid, cs = pre ++ c :: mid ∧ post = mid ++ ds) ∨ ∃ mid, pre = cs ++ mid ∧ ds = mid ++ c :: post := by
  rcases List.append_eq_append_iff.mp h with ⟨mid, rfl, hmid⟩ | ⟨mid, rfl, rfl⟩
  · cases mid with
    | nil => exact .inr ⟨[], by simp, by simpa using hmid.symm⟩
    | cons d mid =>
      obtain ⟨rfl, rfl⟩ := List.cons.inj hmid
      exact .inl ⟨mid, rfl, rfl⟩
  · exact .inr ⟨mid, rfl, rfl⟩

section Split
variable {P : Op → Prop} {E : ε → Prop} {c : Called Op Reply σ} {pre post : List (Called Op Reply σ)}

/-- A call that the second program does not make is one of the first. -/
theorem Runs.bind_left {result : Except ε β} (h : (p >>= f).Runs world rely s (pre ++ c :: post) result t)
    (hf : ∀ a, (f a).All (fun o => ¬ P o) E) (hc : P c.op) :
    (∃ e, result = .error e ∧ p.Runs world rely s (pre ++ c :: post) (.error e) t) ∨
      ∃ a u cs ds, post = cs ++ ds ∧ p.Runs world rely s (pre ++ c :: cs) (.ok a) u ∧
        (f a).Runs world rely u ds result t := by
  rcases runs_bind.mp h with hfails | ⟨a, u, cs, ds, hcalls, hp, hrest⟩
  · exact .inl hfails
  · rcases append_cons_eq_append hcalls with ⟨mid, rfl, rfl⟩ | ⟨mid, rfl, rfl⟩
    · exact .inr ⟨a, u, mid, ds, rfl, hp, hrest⟩
    · exact absurd hc (hrest.all (hf a) c (List.mem_append_right _ List.mem_cons_self))

/-- A call that the first program does not make is one of the second. -/
theorem Runs.bind_right {result : Except ε β} (h : (p >>= f).Runs world rely s (pre ++ c :: post) result t)
    (hp : p.All (fun o => ¬ P o) E) (hc : P c.op) :
    ∃ a u cs ds, pre = cs ++ ds ∧ p.Runs world rely s cs (.ok a) u ∧
      (f a).Runs world rely u (ds ++ c :: post) result t := by
  have hmem : ∀ mid, c ∈ pre ++ c :: mid := fun mid => List.mem_append_right _ List.mem_cons_self
  rcases runs_bind.mp h with ⟨e, -, hfails⟩ | ⟨a, u, cs, ds, hcalls, hruns, hrest⟩
  · exact absurd hc (hfails.all hp c (hmem post))
  · rcases append_cons_eq_append hcalls with ⟨mid, rfl, rfl⟩ | ⟨mid, rfl, rfl⟩
    · exact absurd hc (hruns.all hp c (hmem mid))
    · exact ⟨a, u, cs, mid, rfl, hruns, hrest⟩

end Split

/-- A call in a loop belongs to one of the rounds, and the rest of that round follows it. -/
theorem Runs.forM_split {γ : Type} {xs : List γ} {q : γ → Prog ε Op Reply PUnit} {c : Called Op Reply σ}
    {pre post : List (Called Op Reply σ)} {result : Except ε PUnit}
    (h : (xs.forM q).Runs world rely s (pre ++ c :: post) result t) :
    ∃ x ∈ xs, ∃ u pre' post' r v rest,
      (q x).Runs world rely u (pre' ++ c :: post') r v ∧ post = post' ++ rest := by
  induction xs generalizing s pre with
  | nil =>
    obtain ⟨hnil, -, -⟩ := runs_pure.mp h
    exact absurd hnil (by simp)
  | cons y xs ih =>
    have hlater : ∀ u pre', (xs.forM q).Runs world rely u (pre' ++ c :: post) result t →
        ∃ x ∈ y :: xs, ∃ u pre' post' r v rest,
          (q x).Runs world rely u (pre' ++ c :: post') r v ∧ post = post' ++ rest := by
      intro u pre' hrun
      obtain ⟨x, hx, hround⟩ := ih hrun
      exact ⟨x, List.mem_cons_of_mem _ hx, hround⟩
    rcases runs_bind.mp h with ⟨e, -, hy⟩ | ⟨_, u, cs, ds, hcalls, hy, hrest⟩
    · exact ⟨y, List.mem_cons_self, s, pre, post, _, t, [], hy, (List.append_nil _).symm⟩
    · rcases append_cons_eq_append hcalls with ⟨mid, rfl, rfl⟩ | ⟨mid, rfl, rfl⟩
      · exact ⟨y, List.mem_cons_self, s, pre, mid, _, u, ds, hy, rfl⟩
      · exact hlater u mid hrest

/-- Every round of a loop whose rounds do not fail is run. -/
theorem Runs.forM_mem {γ : Type} {xs : List γ} {q : γ → Prog ε Op Reply PUnit} {P : Op → Prop}
    {result : Except ε PUnit} (h : (xs.forM q).Runs world rely s calls result t)
    (hq : ∀ x, (q x).All P fun _ => False) {x : γ} (hx : x ∈ xs) :
    ∃ u cs r v, (q x).Runs world rely u cs r v ∧ cs ⊆ calls := by
  induction xs generalizing s calls with
  | nil => exact absurd hx List.not_mem_nil
  | cons y xs ih =>
    rcases runs_bind.mp h with ⟨e, -, hy⟩ | ⟨_, u, cs, ds, rfl, hy, hrest⟩
    · obtain ⟨_, hok⟩ := hy.not_error (hq y)
      cases hok
    · rcases List.mem_cons.mp hx with rfl | hx
      · exact ⟨s, cs, _, u, hy, List.subset_append_left ..⟩
      · obtain ⟨w, cs', r, v, hrun, hsub⟩ := ih hrest hx
        exact ⟨w, cs', r, v, hrun, List.Subset.trans hsub (List.subset_append_right ..)⟩

end Prog

/-! ### Pools of programs -/

/-- Programs that run on one state. -/
structure Pool (ι ε Op σ : Type) (Reply : Op → Type) (α : Type) where
  progs : ι → Prog ε Op Reply α
  store : σ

section Pool
variable [DecidableEq ι] (world : (o : Op) → σ → Reply o → σ → Prop)

/-- Command by command one of the programs goes on. -/
inductive Pool.Steps : Pool ι ε Op σ Reply α → List (ι × Called Op Reply σ) → Pool ι ε Op σ Reply α → Prop
  | nil (c : Pool ι ε Op σ Reply α) : Steps c [] c
  | cons {c c' : Pool ι ε Op σ Reply α} {i : ι} {o : Op} {k : Reply o → Prog ε Op Reply α} {r : Reply o}
      {t : σ} {calls : List (ι × Called Op Reply σ)} :
      c.progs i = .call o k → world o c.store r t →
        Steps ⟨Function.update c.progs i (k r), t⟩ calls c' →
          Steps c ((i, ⟨o, r, c.store, t⟩) :: calls) c'

/-- The calls of one program. -/
def ownCalls (i : ι) (calls : List (ι × Called Op Reply σ)) : List (Called Op Reply σ) :=
  calls.filterMap fun c => if c.1 = i then some c.2 else none

variable {world} {rely : σ → σ → Prop}

theorem ownCalls_append {i : ι} (cs ds : List (ι × Called Op Reply σ)) :
    ownCalls i (cs ++ ds) = ownCalls i cs ++ ownCalls i ds := List.filterMap_append

theorem ownCalls_cons_self {i : ι} (c : Called Op Reply σ) (calls : List (ι × Called Op Reply σ)) :
    ownCalls i ((i, c) :: calls) = c :: ownCalls i calls := by simp [ownCalls]

theorem mem_ownCalls {i : ι} {c : Called Op Reply σ} {calls : List (ι × Called Op Reply σ)} :
    c ∈ ownCalls i calls ↔ (i, c) ∈ calls := by
  unfold ownCalls
  rw [List.mem_filterMap]
  constructor
  · rintro ⟨⟨j, d⟩, hmem, hd⟩
    by_cases hj : j = i
    · rw [if_pos hj] at hd
      obtain rfl := Option.some.inj hd
      exact hj ▸ hmem
    · rw [if_neg hj] at hd
      cases hd
  · exact fun hmem => ⟨(i, c), hmem, if_pos rfl⟩

theorem Pool.Steps.answered {c c' : Pool ι ε Op σ Reply α} {calls : List (ι × Called Op Reply σ)}
    (h : Pool.Steps world c calls c') : ∀ d ∈ calls, world d.2.op d.2.before d.2.reply d.2.after := by
  induction h with
  | nil c => simp
  | cons hprog hworld hrest ih => exact List.forall_mem_cons.mpr ⟨hworld, ih⟩

theorem Pool.Steps.all {c c' : Pool ι ε Op σ Reply α} {calls : List (ι × Called Op Reply σ)} {P : Op → Prop}
    {E : ε → Prop} {i : ι} (h : Pool.Steps world c calls c') (hp : (c.progs i).All P E) :
    ∀ d ∈ calls, d.1 = i → P d.2.op := by
  induction h with
  | nil c => simp
  | @cons c c' j o k r t calls hprog hworld hrest ih =>
    by_cases hj : j = i
    · subst hj
      rw [hprog] at hp
      refine List.forall_mem_cons.mpr ⟨fun _ => hp.1, ih ?_⟩
      show (Function.update c.progs j (k r) j).All P E
      rw [Function.update_self]
      exact hp.2 r
    · refine List.forall_mem_cons.mpr ⟨fun heq => absurd heq hj, ih ?_⟩
      show (Function.update c.progs j (k r) i).All P E
      rw [Function.update_of_ne (Ne.symm hj)]
      exact hp

theorem Pool.Steps.append {c d e : Pool ι ε Op σ Reply α} {cs ds : List (ι × Called Op Reply σ)}
    (h : Pool.Steps world c cs d) (h' : Pool.Steps world d ds e) : Pool.Steps world c (cs ++ ds) e := by
  induction h with
  | nil c => exact h'
  | cons hprog hworld hrest ih => exact .cons hprog hworld (ih h')

theorem Pool.Steps.split {c e : Pool ι ε Op σ Reply α} {cs ds : List (ι × Called Op Reply σ)}
    (h : Pool.Steps world c (cs ++ ds) e) : ∃ d, Pool.Steps world c cs d ∧ Pool.Steps world d ds e := by
  induction cs generalizing c with
  | nil => exact ⟨c, .nil c, h⟩
  | cons first cs ih =>
    cases h with
    | cons hprog hworld hrest =>
      obtain ⟨d, hcs, hds⟩ := ih hrest
      exact ⟨d, .cons hprog hworld hcs, hds⟩

/-- In an interleaving too the call comes after one with such an answer. -/
theorem Pool.Steps.after {A : (o : Op) → Reply o → Prop} {B : Op → Prop} {c c' : Pool ι ε Op σ Reply α} {i : ι}
    {d : Called Op Reply σ} {pre post : List (ι × Called Op Reply σ)}
    (h : Pool.Steps world c (pre ++ (i, d) :: post) c') (hp : (c.progs i).After A B) (hB : B d.op) :
    ∃ first e mid, pre = first ++ (i, e) :: mid ∧ A e.op e.reply := by
  induction pre generalizing c with
  | nil =>
    cases h with
    | cons hprog hworld hrest =>
      rw [hprog] at hp
      exact absurd hB hp.1
  | cons d₁ pre ih =>
    cases h with
    | @cons _ _ j o k r t _ hprog hworld hrest =>
      by_cases hj : j = i
      · subst hj
        rw [hprog] at hp
        rcases hp.2 r with hA | hk
        · exact ⟨[], _, pre, rfl, hA⟩
        · have hself : (Function.update c.progs j (k r) j).After A B := by rwa [Function.update_self]
          obtain ⟨first, e, mid, rfl, hA⟩ := ih hrest hself
          exact ⟨_ :: first, e, mid, rfl, hA⟩
      · have hother : (Function.update c.progs j (k r) i).After A B := by
          rwa [Function.update_of_ne (Ne.symm hj)]
        obtain ⟨first, e, mid, rfl, hA⟩ := ih hrest hother
        exact ⟨_ :: first, e, mid, rfl, hA⟩

/-- A view of the state that each call changes in its own way. -/
theorem Pool.Steps.view_eq (v : σ → β) (f : β → Called Op Reply σ → β)
    (hf : ∀ o s r t, world o s r t → v t = f (v s) ⟨o, r, s, t⟩) {c c' : Pool ι ε Op σ Reply α}
    {calls : List (ι × Called Op Reply σ)} (h : Pool.Steps world c calls c') :
    v c'.store = calls.foldl (fun b d => f b d.2) (v c.store) := by
  induction h with
  | nil c => rfl
  | cons hprog hworld hrest ih => rw [List.foldl_cons, ← hf _ _ _ _ hworld, ih]

/-- One program goes on, and the others wait. -/
theorem Pool.Steps.of_advances {p q : Prog ε Op Reply α} {s t : σ} {calls : List (Called Op Reply σ)}
    (h : p.Advances world s calls q t) {progs : ι → Prog ε Op Reply α} (i : ι) (hp : progs i = p) :
    Pool.Steps world ⟨progs, s⟩ (calls.map fun c => (i, c)) ⟨Function.update progs i q, t⟩ := by
  induction h generalizing progs with
  | nil p s =>
    have hsame : Function.update progs i p = progs := Function.update_eq_self_iff.mpr hp.symm
    rw [hsame]
    exact .nil _
  | @cons o k q s t u r calls hworld hrest ih =>
    have hself : Function.update progs i (k r) i = k r := Function.update_self ..
    have hsteps := ih hself
    rw [Function.update_idem] at hsteps
    exact .cons hp hworld hsteps

/-- One program runs to its end, and the others wait. -/
theorem Pool.Steps.of_runs {p : Prog ε Op Reply α} {s t : σ} {calls : List (Called Op Reply σ)}
    {result : Except ε α} (h : p.Runs world Eq s calls result t) {progs : ι → Prog ε Op Reply α} {i : ι}
    (hp : progs i = p) :
    Pool.Steps world ⟨progs, s⟩ (calls.map fun c => (i, c))
      ⟨Function.update progs i (.ofExcept result), t⟩ := .of_advances h.advances i hp

theorem Prog.Runs.of_rely {p : Prog ε Op Reply α} {s s' t : σ} {calls : List (Called Op Reply σ)}
    {result : Except ε α} (htrans : ∀ s t u, rely s t → rely t u → rely s u)
    (h : p.Runs world rely s' calls result t) (hs : rely s s') :
    ∃ t', p.Runs world rely s calls result t' := by
  cases h with
  | pure a s' => exact ⟨s, .pure a s⟩
  | throw e s' => exact ⟨s, .throw e s⟩
  | call hrely hworld hrest => exact ⟨t, .call (htrans _ _ _ hs hrely) hworld hrest⟩

/-- A program that has come to its end, while the others kept to `rely`. -/
theorem Pool.Steps.runs {c c' : Pool ι ε Op σ Reply α} {calls : List (ι × Called Op Reply σ)} {i : ι}
    (hrefl : ∀ s, rely s s) (htrans : ∀ s t u, rely s t → rely t u → rely s u)
    (h : Pool.Steps world c calls c') (hdone : (c'.progs i).done = true)
    (hrely : ∀ d ∈ calls, d.1 ≠ i → rely d.2.before d.2.after) :
    ∃ result t, (c.progs i).Runs world rely c.store (ownCalls i calls) result t := by
  induction h with
  | nil c =>
    revert hdone
    cases c.progs i with
    | pure a => exact fun _ => ⟨.ok a, c.store, .pure a c.store⟩
    | throw e => exact fun _ => ⟨.error e, c.store, .throw e c.store⟩
    | call o k => exact fun hdone => absurd hdone Bool.false_ne_true
  | @cons c c' j o k r t calls hprog hworld hrest ih =>
    obtain ⟨hfirst, hrely⟩ := List.forall_mem_cons.mp hrely
    obtain ⟨result, u, hruns⟩ := ih hdone hrely
    dsimp only at hruns
    by_cases hj : j = i
    · subst hj
      rw [Function.update_self] at hruns
      rw [ownCalls_cons_self, hprog]
      exact ⟨result, u, .call (hrefl _) hworld hruns⟩
    · rw [Function.update_of_ne (Ne.symm hj)] at hruns
      have hown : ownCalls i ((j, ⟨o, r, c.store, t⟩) :: calls) = ownCalls i calls := by
        simp [ownCalls, hj]
      obtain ⟨u', hruns⟩ := hruns.of_rely htrans (hfirst hj)
      rw [hown]
      exact ⟨result, u', hruns⟩

end Pool

end Tulpje.Lib
