import Tulpje.Lib.Command

/-!
# Programs on another store

`handle` replaces each command of a program by a program over the commands of another store. If the
replacements simulate the commands that are good, on stores in a relation `R`, then a program that issues
only good commands is simulated as a whole (`exec_handle`).
-/

namespace Tulpje.Lib.Prog

variable {ε ε' Op Op' σ σ' α β : Type} {Reply : Op → Type} {Reply' : Op' → Type}

/-- Replaces the commands by programs and the failures by others. -/
def handle (fail : ε → ε') (f : (o : Op) → Prog ε' Op' Reply' (Reply o)) :
    Prog ε Op Reply α → Prog ε' Op' Reply' α
  | .pure a => .pure a
  | .throw e => .throw (fail e)
  | .call o k => f o >>= fun r => (k r).handle fail f

variable {fail : ε → ε'} {f : (o : Op) → Prog ε' Op' Reply' (Reply o)}

theorem handle_send (o : Op) : (send o : Prog ε Op Reply (Reply o)).handle fail f = f o := bind_pure (f o)

theorem handle_bind (p : Prog ε Op Reply α) (k : α → Prog ε Op Reply β) :
    (p >>= k).handle fail f = p.handle fail f >>= fun a => (k a).handle fail f := by
  show (p.bind k).handle fail f = (p.handle fail f).bind fun a => (k a).handle fail f
  induction p with
  | pure a => rfl
  | throw e => rfl
  | call o k' ih =>
    refine Eq.trans ?_ (bind_bind _ _ _).symm
    exact congrArg (fun k => f o >>= k) (funext ih)

variable (eval : (o : Op) → σ → Reply o × σ) (eval' : (o : Op') → σ' → Reply' o × σ')

/-- On stores related by `R`, `f` replies to the good commands as `eval` does and keeps `R`. -/
def Simulates (f : (o : Op) → Prog ε' Op' Reply' (Reply o)) (R : σ' → σ → Prop) (good : Op → Prop) : Prop :=
  ∀ o, good o → ∀ t s, R t s →
    ∃ t', (f o).exec eval' t = (.ok (eval o s).1, t') ∧ R t' (eval o s).2

variable {eval eval'} {R : σ' → σ → Prop} {good : Op → Prop}

/-- The run on the other store returns or fails alike, and the stores are related again. -/
theorem exec_handle (hf : Simulates eval eval' f R good) {p : Prog ε Op Reply α} {t : σ'} {s : σ}
    (hR : R t s) (hgood : ∀ o ∈ p.commands eval s, good o) :
    ∃ t', (p.handle fail f).exec eval' t = ((p.exec eval s).1.mapError fail, t') ∧
      R t' (p.exec eval s).2 := by
  induction p generalizing t s with
  | pure a => exact ⟨t, rfl, hR⟩
  | throw e => exact ⟨t, rfl, hR⟩
  | call o k ih =>
    obtain ⟨hfirst, hrest⟩ := List.forall_mem_cons.mp hgood
    obtain ⟨t', hexec, hR'⟩ := hf o hfirst t s hR
    obtain ⟨u, hexec', hu⟩ := ih _ hR' hrest
    refine ⟨u, ?_, hu⟩
    show (f o >>= fun r => (k r).handle fail f).exec eval' t = _
    rw [exec_bind_ok hexec, hexec']
    rfl

end Tulpje.Lib.Prog
