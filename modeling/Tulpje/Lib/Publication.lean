import Tulpje.Lib.History

/-!
# Programs that publish what they read

Some calls change a view of the state, some read it, and some publish a value made from what was read. Programs run
among each other, so a value may be published that was read before another one's change. `last_published` says when the
last published value is the one of the state: the last change was followed by a publication, and nobody has since then
published what was read before it.
-/

namespace Tulpje.Lib

variable {ε Op σ V W α ι : Type} {Reply : Op → Type}

/-- Which answers change the view, which ones tell it, and which ones say that a value was published. -/
structure Publication (Reply : Op → Type) (σ V W : Type) where
  view : σ → V
  publish : V → W
  changes : Prog.Answered Reply → Prop
  read : Prog.Answered Reply → Option V
  published : Prog.Answered Reply → Option W

namespace Publication
variable (P : Publication Reply σ V W)

/-- The world changes the view by the changes only, and tells it as it is. -/
structure Lawful (world : (o : Op) → σ → Reply o → σ → Prop) : Prop where
  keeps : ∀ {o s r t}, world o s r t → ¬ P.changes ⟨o, r⟩ → P.view t = P.view s
  reads : ∀ {o s r t v}, world o s r t → P.read ⟨o, r⟩ = some v → v = P.view t
  apart : ∀ {answered}, P.changes answered → P.read answered = none

/-- What a call may publish is made from what its program read. -/
def FromRead (past : List (Prog.Answered Reply)) (o : Op) : Prop :=
  ∀ r w, P.published ⟨o, r⟩ = some w → ∃ answered ∈ past, ∃ v, P.read answered = some v ∧ P.publish v = w

/-- The value that was published last. -/
def last (calls : List (ι × Called Op Reply σ)) : Option W :=
  calls.reverse.findSome? fun d => P.published d.2.answered

variable {P} {pre post calls : List (ι × Called Op Reply σ)}

/-- A list that has a published value has a last one. -/
theorem exists_last (hsome : ∃ d ∈ post, P.published d.2.answered ≠ none) :
    ∃ mid j d rest w, post = mid ++ (j, d) :: rest ∧ P.published d.answered = some w ∧ P.last post = some w := by
  obtain ⟨w, hw⟩ : ∃ w, P.last post = some w := by
    rw [← Option.isSome_iff_exists, last, List.findSome?_isSome_iff]
    obtain ⟨d, hd, hpublished⟩ := hsome
    exact ⟨d, List.mem_reverse.mpr hd, Option.isSome_iff_ne_none.mpr hpublished⟩
  obtain ⟨later, ⟨j, d⟩, earlier, hsplit, hpublished, -⟩ := List.findSome?_eq_some_iff.mp hw
  refine ⟨earlier.reverse, j, d, later.reverse, w, ?_, hpublished, hw⟩
  rw [← List.reverse_reverse post, hsplit]
  simp

theorem last_append (hsome : ∃ d ∈ post, P.published d.2.answered ≠ none) :
    P.last (pre ++ post) = P.last post := by
  obtain ⟨_, _, _, _, w, -, -, hw⟩ := exists_last hsome
  unfold last at hw ⊢
  rw [List.reverse_append, List.findSome?_append, hw, Option.some_or]

variable [DecidableEq ι] {world : (o : Op) → σ → Reply o → σ → Prop} {c c' : Pool ι ε Op σ Reply α} {i : ι}
  {change : Called Op Reply σ}

theorem Lawful.view_eq (hP : P.Lawful world) (h : Pool.Steps world c calls c')
    (hcalls : ∀ d ∈ calls, ¬ P.changes d.2.answered) : P.view c'.store = P.view c.store := by
  induction h with
  | nil c => rfl
  | cons hprog hworld hrest ih =>
    obtain ⟨hfirst, hcalls⟩ := List.forall_mem_cons.mp hcalls
    exact (ih hcalls).trans (hP.keeps hworld hfirst)

/-- What was read after the last change is so at the end. -/
theorem Lawful.view_of_read (hP : P.Lawful world) (h : Pool.Steps world c (pre ++ (i, change) :: post) c')
    (hlast : ∀ d ∈ post, ¬ P.changes d.2.answered) {v : V} (hread : P.read change.answered = some v) :
    P.view c'.store = v := by
  obtain ⟨d, -, hrest⟩ := h.split
  cases hrest with
  | cons hprog hworld hpost => exact (hP.view_eq hpost hlast).trans (hP.reads hworld hread).symm

/-- The last published value is that of the state, if somebody has published since the last change, and nobody what was
read before it. -/
theorem last_published (hP : P.Lawful world) (h : Pool.Steps world c (pre ++ (i, change) :: post) c')
    (hprogs : ∀ j, (c.progs j).Traced P.FromRead (fun _ _ => True) (fun _ _ => True) [])
    (hlast : ∀ d ∈ post, ¬ P.changes d.2.answered) (hsome : ∃ d ∈ post, P.published d.2.answered ≠ none)
    (hfresh : ∀ j d, (j, d) ∈ post → P.published d.answered ≠ none →
      ∀ e, (j, e) ∈ pre ++ [(i, change)] → P.read e.answered = none) :
    P.last (pre ++ (i, change) :: post) = some (P.publish (P.view c'.store)) := by
  have hall : P.last ((pre ++ [(i, change)]) ++ post) = P.last post := last_append hsome
  rw [List.append_assoc, List.singleton_append] at hall
  obtain ⟨mid, j, d, rest, w, rfl, hpublished, hw⟩ := exists_last hsome
  have hsteps : Pool.Steps world c ((pre ++ (i, change) :: mid) ++ (j, d) :: rest) c' := by simpa using h
  obtain ⟨answered, hanswered, v, hread, rfl⟩ := hsteps.traced (hprogs j) d.reply w hpublished
  obtain ⟨e, he, rfl⟩ := mem_history_ownCalls.mp hanswered
  -- it was read after the change
  have hmid : (j, e) ∈ mid := by
    rw [← List.singleton_append, ← List.append_assoc] at he
    refine (List.mem_append.mp he).resolve_left fun hearly => ?_
    rw [hfresh j d (by simp) (by simp [hpublished]) e hearly] at hread
    cases hread
  obtain ⟨first, later, rfl⟩ := List.append_of_mem hmid
  have hsteps : Pool.Steps world c ((pre ++ (i, change) :: first) ++ (j, e) :: (later ++ (j, d) :: rest)) c' := by
    simpa using h
  rw [hall, hw, hP.view_of_read hsteps (fun f hf => hlast f (by simp at hf ⊢; tauto)) hread]

/-! ### The program of the last change -/

variable (P) in
/-- A change comes before its program reads. -/
def ReadsLater (past : List (Prog.Answered Reply)) (o : Op) : Prop :=
  ∀ r, P.changes ⟨o, r⟩ → ∀ answered ∈ past, P.read answered = none

variable (P) in
/-- Something was published since the last change. -/
def Settled : List (Prog.Answered Reply) → Prop
  | [] => True
  | answered :: past => P.published answered ≠ none ∨ ¬ P.changes answered ∧ Settled past

theorem Settled.exists_published {newer older : List (Prog.Answered Reply)} {answered : Prog.Answered Reply}
    (h : P.Settled (newer ++ answered :: older)) (hchange : P.changes answered) (hnone : P.published answered = none) :
    ∃ later ∈ newer, P.published later ≠ none := by
  induction newer with
  | nil =>
    rcases h with hpublished | ⟨hkeeps, _⟩
    · exact absurd hnone hpublished
    · exact absurd hchange hkeeps
  | cons first newer ih =>
    rcases h with hpublished | ⟨_, hrest⟩
    · exact ⟨first, List.mem_cons_self, hpublished⟩
    · obtain ⟨later, hlater, hpublished⟩ := ih hrest
      exact ⟨later, List.mem_cons_of_mem _ hlater, hpublished⟩

/-- The program of the last change has ended and has published it, and no other one has since then published what it
read before. -/
theorem last_published_of_ended (hP : P.Lawful world) (h : Pool.Steps world c (pre ++ (i, change) :: post) c')
    (hprogs : ∀ j, (c.progs j).Traced P.FromRead (fun _ _ => True) (fun _ _ => True) [])
    (hown : (c.progs i).Traced P.ReadsLater (fun past _ => P.Settled past) (fun _ _ => True) [])
    {a : α} (hended : c'.progs i = .pure a) (hchange : P.changes change.answered)
    (hnone : P.published change.answered = none) (hlast : ∀ d ∈ post, ¬ P.changes d.2.answered)
    (hfresh : ∀ j ≠ i, ∀ d, (j, d) ∈ post → P.published d.answered ≠ none →
      ∀ e, (j, e) ∈ pre → P.read e.answered = none) :
    P.last (pre ++ (i, change) :: post) = some (P.publish (P.view c'.store)) := by
  have hsettled := h.traced_rest hown
  rw [hended, ownCalls_append, ownCalls_cons_self] at hsettled
  have hhistory : Prog.history (ownCalls i pre ++ change :: ownCalls i post) =
      Prog.history (ownCalls i post) ++ change.answered :: Prog.history (ownCalls i pre) := by
    simp [Prog.history, Called.answered]
  rw [hhistory] at hsettled
  obtain ⟨later, hlater, hpublished⟩ := Settled.exists_published hsettled hchange hnone
  obtain ⟨d, hd, rfl⟩ := mem_history_ownCalls.mp hlater
  refine last_published hP h hprogs hlast ⟨(i, d), hd, hpublished⟩ fun j d hd hpublished e he => ?_
  rcases List.mem_append.mp he with hpre | hself
  · by_cases hj : j = i
    · subst hj
      exact h.traced hown change.reply hchange _ (mem_history_ownCalls.mpr ⟨e, hpre, rfl⟩)
    · exact hfresh j hj d hd hpublished e hpre
  · obtain ⟨rfl, rfl⟩ := Prod.mk.inj (List.mem_singleton.mp hself)
    exact hP.apart hchange

end Publication

end Tulpje.Lib
