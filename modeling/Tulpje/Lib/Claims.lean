import Mathlib.Tactic.Common
import Tulpje.Lib.Command

/-!
# Slots of several kinds

Slots that each hold a thing of some kind, or nothing. A claim names a slot and a kind; it fits if the slot
is free or of this kind already, and then the slot is filled with it. A list of claims fits one after the
other exactly if each fits the slots as they are and no two of them contradict each other
(`fitAll_iff`).

`Prog.Claims v cs p` says that the program fails unless its claims fit, and fills the slots with them
otherwise.
-/

namespace Tulpje.Lib

variable {κ ι : Type} [DecidableEq κ]

/-- The slot of the claim holds nothing of another kind. -/
def Fits (slots : κ → Option ι) (c : κ × ι) : Prop := ∀ i, slots c.1 = some i → i = c.2

def fill (slots : κ → Option ι) (c : κ × ι) : κ → Option ι := Function.update slots c.1 (some c.2)

def FitAll (slots : κ → Option ι) : List (κ × ι) → Prop
  | [] => True
  | c :: cs => Fits slots c ∧ FitAll (fill slots c) cs

variable {slots : κ → Option ι} {c d : κ × ι} {cs ds : List (κ × ι)}

theorem fits_fill_iff (hc : Fits slots c) :
    Fits (fill slots c) d ↔ Fits slots d ∧ (c.1 = d.1 → c.2 = d.2) := by
  unfold Fits fill
  by_cases h : d.1 = c.1
  · rw [h, Function.update_self]
    constructor
    · intro hd
      have heq := hd c.2 rfl
      exact ⟨fun i hi => (hc i hi).trans heq, fun _ => heq⟩
    · rintro ⟨-, heq⟩ i hi
      exact Option.some.inj hi ▸ heq rfl
  · rw [Function.update_of_ne h]
    exact (and_iff_left fun h' => absurd h'.symm h).symm

theorem fitAll_iff : FitAll slots cs ↔
    (∀ c ∈ cs, Fits slots c) ∧ ∀ c ∈ cs, ∀ d ∈ cs, c.1 = d.1 → c.2 = d.2 := by
  induction cs generalizing slots with
  | nil => exact ⟨fun _ => ⟨nofun, nofun⟩, fun _ => trivial⟩
  | cons c cs ih =>
    show Fits slots c ∧ FitAll (fill slots c) cs ↔ _
    rw [ih]
    constructor
    · rintro ⟨hc, hcs, hpairs⟩
      have hcs : ∀ d ∈ cs, Fits slots d ∧ (c.1 = d.1 → c.2 = d.2) :=
        fun d hd => (fits_fill_iff hc).mp (hcs d hd)
      refine ⟨List.forall_mem_cons.mpr ⟨hc, fun d hd => (hcs d hd).1⟩, fun x hx y hy hxy => ?_⟩
      rcases List.mem_cons.mp hx with hx | hx
      · rcases List.mem_cons.mp hy with hy | hy
        · rw [hx, hy]
        · rw [hx] at hxy ⊢
          exact (hcs y hy).2 hxy
      · rcases List.mem_cons.mp hy with hy | hy
        · rw [hy] at hxy ⊢
          exact ((hcs x hx).2 hxy.symm).symm
        · exact hpairs x hx y hy hxy
    · rintro ⟨hfits, hpairs⟩
      obtain ⟨hc, hcs⟩ := List.forall_mem_cons.mp hfits
      refine ⟨hc, fun d hd => (fits_fill_iff hc).mpr ⟨hcs d hd, ?_⟩, fun x hx y hy => ?_⟩
      · exact hpairs c (List.mem_cons_self ..) d (List.mem_cons_of_mem _ hd)
      · exact hpairs x (List.mem_cons_of_mem _ hx) y (List.mem_cons_of_mem _ hy)

theorem fitAll_append : FitAll slots (cs ++ ds) ↔ FitAll slots cs ∧ FitAll (cs.foldl fill slots) ds := by
  induction cs generalizing slots with
  | nil => exact (and_iff_right trivial).symm
  | cons c cs ih =>
    show Fits slots c ∧ FitAll (fill slots c) (cs ++ ds) ↔ _
    rw [ih, ← and_assoc]
    rfl

/-! ### Programs that claim slots -/

namespace Prog

variable {ε Op σ α β : Type} {Reply : Op → Type} {eval : (o : Op) → σ → Reply o × σ}

variable (eval) in
structure Claims (v : σ → κ → Option ι) (cs : σ → List (κ × ι)) (p : Prog ε Op Reply α) : Prop where
  fits : ∀ s, FitAll (v s) (cs s) → ∃ a t, p.exec eval s = (.ok a, t) ∧ v t = (cs s).foldl fill (v s)
  fails : ∀ s, ¬ FitAll (v s) (cs s) → ∃ e t, p.exec eval s = (.error e, t)

variable {v : σ → κ → Option ι} {cs ds : σ → List (κ × ι)} {P : Op → Prop}

theorem Claims.exec_eq_ok_iff {p : Prog ε Op Reply Unit} (hp : Claims eval v cs p) (s : σ) :
    (∃ t, p.exec eval s = (.ok (), t)) ↔ FitAll (v s) (cs s) := by
  constructor
  · rintro ⟨t, hexec⟩
    by_contra hfit
    obtain ⟨e, u, hexec'⟩ := hp.fails s hfit
    rw [hexec] at hexec'
    cases hexec'
  · intro hfit
    obtain ⟨_, t, hexec, -⟩ := hp.fits s hfit
    exact ⟨t, hexec⟩

/-- A program that cannot fail and keeps the slots claims nothing. -/
theorem Claims.of_all {p : Prog ε Op Reply α}
    (hp : p.All (fun o => ∀ s, v (eval o s).2 = v s) fun _ => False) :
    Claims eval v (fun _ => []) p := by
  refine ⟨fun s _ => ?_, fun s h => absurd trivial h⟩
  obtain ⟨a, hexec⟩ := exec_ok_of_all hp s
  exact ⟨a, _, hexec, exec_keeps hp s⟩

/-- The claims of the second program must not depend on what the first one writes. -/
theorem Claims.bind {p : Prog ε Op Reply α} {q : α → Prog ε Op Reply β} (hp : Claims eval v cs p)
    (hq : ∀ a, Claims eval v ds (q a)) (hframe : ∀ s, ds (p.exec eval s).2 = ds s) :
    Claims eval v (fun s => cs s ++ ds s) (p >>= q) := by
  have hnext : ∀ {s a t}, p.exec eval s = (.ok a, t) → ds t = ds s := by
    intro s a t hexec
    have h := hframe s
    rwa [hexec] at h
  constructor
  · intro s h
    obtain ⟨hcs, hds⟩ := fitAll_append.mp h
    obtain ⟨a, t, hexec, hv⟩ := hp.fits s hcs
    rw [← hv, ← hnext hexec] at hds
    obtain ⟨b, u, hexec', hv'⟩ := (hq a).fits t hds
    refine ⟨b, u, (exec_bind_ok hexec q).trans hexec', ?_⟩
    rw [hv', hv, hnext hexec, List.foldl_append]
  · intro s h
    by_cases hcs : FitAll (v s) (cs s)
    · obtain ⟨a, t, hexec, hv⟩ := hp.fits s hcs
      have hds : ¬ FitAll (v t) (ds t) := by
        rw [hv, hnext hexec]
        exact fun hds => h (fitAll_append.mpr ⟨hcs, hds⟩)
      obtain ⟨e, u, hexec'⟩ := (hq a).fails t hds
      exact ⟨e, u, (exec_bind_ok hexec q).trans hexec'⟩
    · obtain ⟨e, t, hexec⟩ := hp.fails s hcs
      refine ⟨e, t, ?_⟩
      rw [exec_bind, hexec]

theorem Claims.forM {γ : Type} {cs : γ → σ → List (κ × ι)} {p : γ → Prog ε Op Reply PUnit}
    {xs : List γ} (hp : ∀ x ∈ xs, Claims eval v (cs x) (p x))
    (hframe : xs.Pairwise fun x y => ∀ s, cs y ((p x).exec eval s).2 = cs y s) :
    Claims eval v (fun s => xs.flatMap fun x => cs x s) (xs.forM p) := by
  induction xs with
  | nil => exact Claims.of_all (All.pure _)
  | cons x xs ih =>
    obtain ⟨hfirst, hrest⟩ := List.pairwise_cons.mp hframe
    refine (hp x (List.mem_cons_self ..)).bind
      (fun _ => ih (fun y hy => hp y (List.mem_cons_of_mem _ hy)) hrest) fun s => ?_
    exact List.flatMap_congr fun y hy => hfirst y hy s

end Prog

end Tulpje.Lib
