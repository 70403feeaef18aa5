import Mathlib.Data.Set.Disjoint
import Mathlib.Logic.Function.Basic
import Tulpje.Lib.Command

/-!
# Two programs on one store

A schedule says which of two programs issues its next command. Nothing makes a sequence of commands of
one program atomic. `run_eq_serial` is the theorem of conflict serializability for two programs: if no
command of the second program that ran before a command of the first is in conflict with it, then the
store ends as if the first program had run to its end before the second one started. `run_eq_serial_of_apart` is
about programs with no commands in conflict at all, for which both orders and all schedules are the same, and
`run_isolated` about programs that share commands in conflict, but each have a part of the store to themselves.

`Footprint` says of each command which cells of the store it looks at and which it changes. Two commands
are in conflict when one of them changes a cell the other looks at or changes.
-/

namespace Tulpje.Lib

variable {ε Op σ α : Type} {Reply : Op → Type}

inductive Side
  | left
  | right
  deriving DecidableEq

def Side.other : Side → Side
  | .left => .right
  | .right => .left

theorem Side.other_ne (i : Side) : i.other ≠ i := by cases i <;> decide

theorem Side.other_other (i : Side) : i.other.other = i := by cases i <;> rfl

theorem Side.eq_other {i j : Side} (h : j ≠ i) : j = i.other := by
  cases i <;> cases j <;> first | rfl | exact absurd rfl h

/-- The programs of both sides and the store they share. -/
structure Threads (ε Op σ : Type) (Reply : Op → Type) (α : Type) where
  progs : Side → Prog ε Op Reply α
  store : σ

def Prog.done : Prog ε Op Reply α → Bool
  | .call .. => false
  | _ => true

variable (eval : (o : Op) → σ → Reply o × σ)

/-- Side `i` issues its next command; a side that is done does nothing. -/
def Threads.step (c : Threads ε Op σ Reply α) (i : Side) : Threads ε Op σ Reply α :=
  match c.progs i with
  | .call o k => ⟨Function.update c.progs i (k (eval o c.store).1), (eval o c.store).2⟩
  | _ => c

def Threads.run (c : Threads ε Op σ Reply α) (schedule : List Side) : Threads ε Op σ Reply α :=
  schedule.foldl (Threads.step eval) c

def Threads.done (c : Threads ε Op σ Reply α) : Bool := (c.progs .left).done && (c.progs .right).done

/-- The commands of a run, in the order in which the store executes them. -/
def Threads.trace (c : Threads ε Op σ Reply α) : List Side → List (Side × Op)
  | [] => []
  | i :: schedule =>
    match c.progs i with
    | .call o _ => (i, o) :: (c.step eval i).trace schedule
    | _ => c.trace schedule

/-- The store after `first` has run to its end and then the other side has. -/
def Threads.serial (c : Threads ε Op σ Reply α) (first : Side) : σ :=
  ((c.progs first.other).exec eval ((c.progs first).exec eval c.store).2).2

/-- Neither command's reply depends on the other, and their order does not matter to the store. -/
def Independent (o o' : Op) : Prop :=
  ∀ s, (eval o' (eval o s).2).1 = (eval o' s).1 ∧ (eval o (eval o' s).2).1 = (eval o s).1 ∧
    (eval o' (eval o s).2).2 = (eval o (eval o' s).2).2

variable {eval}

/-- A command moves behind a program whose commands are all independent of it. -/
theorem Prog.exec_after {o : Op} {p : Prog ε Op Reply α} {s : σ}
    (h : ∀ o' ∈ p.commands eval (eval o s).2, Independent eval o o') :
    (p.exec eval (eval o s).2).2 = (eval o (p.exec eval s).2).2 ∧
      (eval o (p.exec eval s).2).1 = (eval o s).1 ∧
      p.commands eval (eval o s).2 = p.commands eval s := by
  induction p generalizing s with
  | pure a => exact ⟨rfl, rfl, rfl⟩
  | throw e => exact ⟨rfl, rfl, rfl⟩
  | call o' k ih =>
    obtain ⟨hreply', hreply, hstore⟩ := h o' (List.mem_cons_self ..) s
    have htail : (call o' k).commands eval (eval o s).2 =
        o' :: (k (eval o' s).1).commands eval (eval o (eval o' s).2).2 := by
      rw [commands, hreply', hstore]
    rw [htail] at h ⊢
    obtain ⟨hexec, hreplyo, hcommands⟩ :=
      ih (eval o' s).1 fun o'' ho'' => h o'' (List.mem_cons_of_mem _ ho'')
    refine ⟨?_, ?_, ?_⟩
    · rw [exec, hreply', hstore]
      exact hexec
    · rw [exec, hreplyo, hreply]
    · rw [hcommands, commands]

/-- The commands of `first` never follow a command of the other side that they depend on. -/
def Threads.Ordered (conflict : Op → Op → Prop) (first : Side) (trace : List (Side × Op)) : Prop :=
  trace.Pairwise fun x y => x.1 = first.other → y.1 = first → ¬ conflict x.2 y.2

variable {conflict : Op → Op → Prop}

theorem Prog.exists_call {p : Prog ε Op Reply α} (h : ¬ p.done = true) : ∃ o k, p = .call o k := by
  cases p with
  | call o k => exact ⟨o, k, rfl⟩
  | pure a => exact absurd rfl h
  | throw e => exact absurd rfl h

theorem Prog.exec_of_done {p : Prog ε Op Reply α} (h : p.done = true) (s : σ) :
    (p.exec eval s).2 = s ∧ p.commands eval s = [] := by
  cases p with
  | call o k => exact absurd h Bool.false_ne_true
  | pure a => exact ⟨rfl, rfl⟩
  | throw e => exact ⟨rfl, rfl⟩

namespace Threads
variable {c : Threads ε Op σ Reply α} {i first : Side} {o : Op} {k : Reply o → Prog ε Op Reply α}

theorem progs_done (h : c.done = true) (i : Side) : (c.progs i).done = true := by
  obtain ⟨hleft, hright⟩ := (Bool.and_eq_true _ _).mp h
  cases i
  · exact hleft
  · exact hright

/-- Programs that are done leave the store as it is. -/
theorem serial_of_done (h : c.done = true) (first : Side) : c.serial eval first = c.store := by
  have hexec : ∀ i s, ((c.progs i).exec eval s).2 = s := fun i s => (Prog.exec_of_done (progs_done h i) s).1
  rw [serial, hexec, hexec]

variable (eval) in
theorem step_of_done (h : (c.progs i).done = true) (schedule : List Side) :
    c.step eval i = c ∧ c.trace eval (i :: schedule) = c.trace eval schedule := by
  cases hprog : c.progs i with
  | call o k =>
    rw [hprog] at h
    exact absurd h Bool.false_ne_true
  | pure a => exact ⟨by rw [step, hprog], by rw [trace, hprog]⟩
  | throw e => exact ⟨by rw [step, hprog], by rw [trace, hprog]⟩

theorem trace_of_call (h : c.progs i = .call o k) (schedule : List Side) :
    c.trace eval (i :: schedule) = (i, o) :: (c.step eval i).trace eval schedule := by
  rw [trace, h]

variable (eval) in
theorem step_of_call (h : c.progs i = .call o k) : (c.step eval i).store = (eval o c.store).2 ∧
    (c.step eval i).progs i = k (eval o c.store).1 ∧ (c.step eval i).progs i.other = c.progs i.other := by
  have hstep : c.step eval i = ⟨Function.update c.progs i (k (eval o c.store).1), (eval o c.store).2⟩ := by
    rw [step, h]
  rw [hstep]
  exact ⟨rfl, Function.update_self .., Function.update_of_ne i.other_ne _ _⟩

theorem serial_step_self (h : c.progs first = .call o k) :
    (c.step eval first).serial eval first = c.serial eval first := by
  obtain ⟨hstore, hself, hother⟩ := step_of_call eval h
  rw [serial, hother, hself, hstore, serial, h, Prog.exec]

/-- A command of the other side moves behind the first one. -/
theorem serial_step_other (h : c.progs first.other = .call o k)
    (hindependent : ∀ o' ∈ (c.progs first).commands eval (eval o c.store).2, Independent eval o o') :
    (c.step eval first.other).serial eval first = c.serial eval first ∧
      (c.progs first).commands eval (eval o c.store).2 = (c.progs first).commands eval c.store := by
  obtain ⟨hstore, hself, hother⟩ := step_of_call eval h
  rw [first.other_other] at hother
  obtain ⟨hexec, hreply, hcommands⟩ := Prog.exec_after hindependent
  refine ⟨?_, hcommands⟩
  rw [serial, hother, hself, hstore, serial, h, Prog.exec, hexec, hreply]

theorem run_eq_serial_aux (hconflict : ∀ o o', ¬ conflict o o' → Independent eval o o')
    (first : Side) (schedule : List Side) (c : Threads ε Op σ Reply α)
    (hdone : (c.run eval schedule).done = true)
    (hordered : Ordered conflict first (c.trace eval schedule)) :
    (c.run eval schedule).store = c.serial eval first ∧
      ∀ o ∈ (c.progs first).commands eval c.store, (first, o) ∈ c.trace eval schedule := by
  induction schedule generalizing c with
  | nil =>
    change c.done = true at hdone
    refine ⟨(serial_of_done hdone first).symm, fun o ho => ?_⟩
    rw [(Prog.exec_of_done (progs_done hdone first) c.store).2] at ho
    exact absurd ho List.not_mem_nil
  | cons i schedule ih =>
    have hrun : c.run eval (i :: schedule) = (c.step eval i).run eval schedule := rfl
    rw [hrun] at hdone ⊢
    by_cases hi : (c.progs i).done = true
    · obtain ⟨hstep, htrace⟩ := step_of_done eval hi schedule
      rw [hstep] at hdone ⊢
      rw [htrace] at hordered ⊢
      exact ih c hdone hordered
    · obtain ⟨o, k, hprog⟩ := Prog.exists_call hi
      rw [trace_of_call hprog] at hordered ⊢
      obtain ⟨hhead, htail⟩ := List.pairwise_cons.mp hordered
      obtain ⟨hstore, hcommands⟩ := ih _ hdone htail
      rw [hstore]
      obtain ⟨hst, hself, hother⟩ := step_of_call eval hprog
      by_cases hi : i = first
      · subst hi
        rw [hself, hst] at hcommands
        refine ⟨serial_step_self hprog, fun o' ho' => ?_⟩
        rw [hprog, Prog.commands] at ho'
        rcases List.mem_cons.mp ho' with rfl | ho'
        · exact List.mem_cons_self ..
        · exact List.mem_cons_of_mem _ (hcommands o' ho')
      · obtain rfl := Side.eq_other hi
        rw [first.other_other] at hother
        rw [hother, hst] at hcommands
        -- the commands of the first side all come later in the trace, so `o` moves behind them
        obtain ⟨hserial, hsame⟩ := serial_step_other hprog fun o' ho' =>
          hconflict o o' (hhead _ (hcommands o' ho') rfl rfl)
        refine ⟨hserial, fun o' ho' => ?_⟩
        rw [← hsame] at ho'
        exact List.mem_cons_of_mem _ (hcommands o' ho')

end Threads

theorem Threads.run_eq_serial (hconflict : ∀ o o', ¬ conflict o o' → Independent eval o o')
    {first : Side} {schedule : List Side} {c : Threads ε Op σ Reply α}
    (hdone : (c.run eval schedule).done = true)
    (hordered : Ordered conflict first (c.trace eval schedule)) :
    (c.run eval schedule).store = c.serial eval first :=
  (run_eq_serial_aux hconflict first schedule c hdone hordered).1

/-! ### Programs that stay apart -/

/-- A program issues the same commands behind a command that they are all independent of. -/
theorem Prog.commands_after {o : Op} {p : Prog ε Op Reply α} {s : σ}
    (h : ∀ o' ∈ p.commands eval s, Independent eval o o') : p.commands eval (eval o s).2 = p.commands eval s := by
  induction p generalizing s with
  | pure a => rfl
  | throw e => rfl
  | call o' k ih =>
    obtain ⟨hfirst, hrest⟩ := List.forall_mem_cons.mp h
    obtain ⟨hreply, -, hstore⟩ := hfirst s
    rw [commands, commands, hreply, hstore, ih _ hrest]

namespace Threads

theorem serial_step (c : Threads ε Op σ Reply α) {i : Side} {o : Op} {k : Reply o → Prog ε Op Reply α}
    (h : c.progs i = .call o k)
    (hindependent : ∀ o' ∈ (c.progs i.other).commands eval (eval o c.store).2, Independent eval o o') (first : Side) :
    (c.step eval i).serial eval first = c.serial eval first := by
  by_cases hi : i = first
  · subst hi
    exact serial_step_self h
  · obtain rfl := Side.eq_other hi
    rw [first.other_other] at hindependent
    exact (serial_step_other h hindependent).1

/-- If no command of one program, run alone, is in conflict with one of the other, then it does not matter in which
order the programs run, nor how their commands are mixed. -/
theorem run_eq_serial_of_apart (hconflict : ∀ o o', ¬ conflict o o' → Independent eval o o')
    (schedule : List Side) (c : Threads ε Op σ Reply α) (hdone : (c.run eval schedule).done = true)
    (hapart : ∀ i, ∀ o ∈ (c.progs i).commands eval c.store, ∀ o' ∈ (c.progs i.other).commands eval c.store,
      ¬ conflict o o') (first : Side) :
    (c.run eval schedule).store = c.serial eval first := by
  induction schedule generalizing c with
  | nil => exact (serial_of_done hdone first).symm
  | cons i schedule ih =>
    have hrun : c.run eval (i :: schedule) = (c.step eval i).run eval schedule := rfl
    rw [hrun] at hdone ⊢
    by_cases hi : (c.progs i).done = true
    · rw [(step_of_done eval hi schedule).1] at hdone ⊢
      exact ih c hdone hapart
    · obtain ⟨o, k, hprog⟩ := Prog.exists_call hi
      obtain ⟨hstore, hself, hother⟩ := step_of_call eval hprog
      have hcommands : (c.progs i).commands eval c.store =
          o :: ((c.step eval i).progs i).commands eval (c.step eval i).store := by
        rw [hprog, hself, hstore, Prog.commands]
      have hindependent : ∀ o' ∈ (c.progs i.other).commands eval c.store, Independent eval o o' := fun o' ho' =>
        hconflict o o' (hapart i o (hcommands ▸ List.mem_cons_self ..) o' ho')
      -- the other program issues the same commands behind `o` as without it
      have hissued := Prog.commands_after hindependent
      rw [ih _ hdone ?_, serial_step c hprog fun o' ho' => hindependent o' (hissued ▸ ho')]
      intro j o₁ ho₁ o₂ ho₂
      by_cases hj : j = i
      · subst hj
        rw [hother, hstore, hissued] at ho₂
        exact hapart j o₁ (hcommands ▸ List.mem_cons_of_mem _ ho₁) o₂ ho₂
      · obtain rfl := Side.eq_other hj
        rw [i.other_other] at ho₂
        rw [hother, hstore, hissued] at ho₁
        refine hapart i.other o₁ ho₁ o₂ ?_
        rw [i.other_other]
        exact hcommands ▸ List.mem_cons_of_mem _ ho₂

end Threads

/-! ### Parts of the store -/

section Parts
variable {β : Type}

variable (eval) in
/-- Whatever happens to the rest of the store between two commands, the program ends in `Q` when its own part is as
given, and none of its commands changes the part of the other program. -/
def Prog.Isolated {α : Type} (own other : σ → β) (Q : Except ε α → β → Prop) : Prog ε Op Reply α → β → Prop
  | .pure a, b => Q (.ok a) b
  | .throw e, b => Q (.error e) b
  | .call o k, b => ∀ s, own s = b →
    other (eval o s).2 = other s ∧ (k (eval o s).1).Isolated own other Q (own (eval o s).2)

variable {γ : Type} {own other : σ → β} {Q : Except ε γ → β → Prop}

theorem Prog.Isolated.bind {p : Prog ε Op Reply α} {f : α → Prog ε Op Reply γ} {b : β}
    (h : p.Isolated eval own other (fun result b' => match result with
      | .ok a => (f a).Isolated eval own other Q b'
      | .error e => Q (.error e) b') b) : (p >>= f).Isolated eval own other Q b := by
  show (p.bind f).Isolated eval own other Q b
  induction p generalizing b with
  | pure a => exact h
  | throw e => exact h
  | call o k ih =>
    intro s hs
    obtain ⟨hother, hrest⟩ := h s hs
    exact ⟨hother, ih _ hrest⟩

/-- A program that leaves both parts alone. -/
theorem Prog.Isolated.of_all {p : Prog ε Op Reply γ} {E : ε → Prop}
    (hp : p.All (fun o => ∀ s, own (eval o s).2 = own s ∧ other (eval o s).2 = other s) E) {b : β}
    (hQ : ∀ result, Q result b) : p.Isolated eval own other Q b := by
  induction p generalizing b with
  | pure a => exact hQ _
  | throw e => exact hQ _
  | call o k ih =>
    intro s hs
    obtain ⟨hown, hother⟩ := hp.1 s
    refine ⟨hother, ih _ (hp.2 _) ?_⟩
    rw [hown, hs]
    exact hQ

/-- A command of the program, and the rest of it. -/
theorem Prog.Isolated.send {o : Op} {f : Reply o → Prog ε Op Reply γ} {b : β} (h : ∀ s, own s = b →
    other (eval o s).2 = other s ∧ (f (eval o s).1).Isolated eval own other Q (own (eval o s).2)) :
    ((Prog.send o : Prog ε Op Reply (Reply o)) >>= f).Isolated eval own other Q b := h

/-- How a program that is done has ended. -/
def Prog.result : Prog ε Op Reply α → Option (Except ε α)
  | .pure a => some (.ok a)
  | .throw e => some (.error e)
  | .call .. => none

theorem Prog.exists_result {p : Prog ε Op Reply α} (h : p.done = true) : ∃ result, p.result = some result := by
  cases p with
  | call o k => exact absurd h Bool.false_ne_true
  | pure a => exact ⟨_, rfl⟩
  | throw e => exact ⟨_, rfl⟩

/-- Two programs that leave each other's part alone: when both are done, each part is as its own program makes it. -/
theorem Threads.run_isolated (part : Side → σ → β) (post : Side → Except ε α → β → Prop) (schedule : List Side)
    (c : Threads ε Op σ Reply α)
    (h : ∀ i, (c.progs i).Isolated eval (part i) (part i.other) (post i) (part i c.store)) (i : Side)
    {result : Except ε α} (hresult : ((c.run eval schedule).progs i).result = some result) :
    post i result (part i (c.run eval schedule).store) := by
  induction schedule generalizing c with
  | nil =>
    have hi := h i
    change (c.progs i).result = _ at hresult
    show post i result (part i c.store)
    cases hprog : c.progs i with
    | call o k =>
      rw [hprog] at hresult
      cases hresult
    | pure a =>
      rw [hprog] at hresult hi
      cases hresult
      exact hi
    | throw e =>
      rw [hprog] at hresult hi
      cases hresult
      exact hi
  | cons j schedule ih =>
    refine ih (c.step eval j) (fun i => ?_) hresult
    by_cases hj : (c.progs j).done = true
    · rw [(step_of_done eval hj schedule).1]
      exact h i
    · obtain ⟨o, k, hprog⟩ := Prog.exists_call hj
      obtain ⟨hstore, hself, hother⟩ := step_of_call eval hprog
      have hcall := h j
      rw [hprog] at hcall
      obtain ⟨hkept, hrest⟩ := hcall c.store rfl
      by_cases hi : i = j
      · subst hi
        rw [hself, hstore]
        exact hrest
      · obtain rfl := Side.eq_other hi
        rw [hother, hstore, hkept]
        exact h j.other

end Parts

/-! ### Footprints -/

variable (eval) in
/-- The cells of a store, and which of them each command looks at and changes. -/
structure Footprint (Cell : Type) (Val : Cell → Type) where
  look : σ → (c : Cell) → Val c
  touches : Op → Set Cell
  writes : Op → Set Cell
  ext : ∀ s t, look s = look t → s = t
  writes_subset : ∀ o, writes o ⊆ touches o
  frame : ∀ o s, ∀ c ∉ writes o, look (eval o s).2 c = look s c
  reply_congr : ∀ o s t, (∀ c ∈ touches o, look s c = look t c) → (eval o s).1 = (eval o t).1
  write_congr : ∀ o s t, (∀ c ∈ touches o, look s c = look t c) →
    ∀ c ∈ writes o, look (eval o s).2 c = look (eval o t).2 c

namespace Footprint

variable {Cell : Type} {Val : Cell → Type} (F : Footprint eval Cell Val)

/-- One of the commands changes a cell that the other touches. -/
def Conflict (o o' : Op) : Prop :=
  ∃ c, c ∈ F.writes o ∧ c ∈ F.touches o' ∨ c ∈ F.touches o ∧ c ∈ F.writes o'

variable {F}

theorem not_conflict_iff {o o' : Op} : ¬ F.Conflict o o' ↔
    (∀ c ∈ F.writes o, c ∉ F.touches o') ∧ ∀ c ∈ F.writes o', c ∉ F.touches o := by
  constructor
  · exact fun h => ⟨fun c hc hc' => h ⟨c, .inl ⟨hc, hc'⟩⟩, fun c hc hc' => h ⟨c, .inr ⟨hc', hc⟩⟩⟩
  · rintro ⟨h, h'⟩ ⟨c, ⟨hw, ht⟩ | ⟨ht, hw⟩⟩
    · exact h c hw ht
    · exact h' c hw ht

/-- What a command touches is as it was after a command that writes nothing of it. -/
theorem look_eq {o o' : Op} (h : ∀ c ∈ F.writes o, c ∉ F.touches o') (s : σ) :
    ∀ c ∈ F.touches o', F.look (eval o s).2 c = F.look s c :=
  fun c hc => F.frame o s c fun hw => h c hw hc

theorem independent_of_not_conflict {o o' : Op} (h : ¬ F.Conflict o o') : Independent eval o o' := by
  obtain ⟨h, h'⟩ := not_conflict_iff.mp h
  intro s
  refine ⟨F.reply_congr o' _ _ (look_eq h s), F.reply_congr o _ _ (look_eq h' s),
    F.ext _ _ (funext fun c => ?_)⟩
  by_cases hc : c ∈ F.writes o
  · rw [F.frame o' _ c fun hc' => h c hc (F.writes_subset o' hc')]
    exact F.write_congr o _ _ (fun d hd => (look_eq h' s d hd).symm) c hc
  · by_cases hc' : c ∈ F.writes o'
    · rw [F.frame o _ c hc]
      exact F.write_congr o' _ _ (look_eq h s) c hc'
    · rw [F.frame o' _ c hc', F.frame o _ c hc, F.frame o _ c hc, F.frame o' _ c hc']

end Footprint

end Tulpje.Lib
