import Mathlib.Data.List.Induction
import Mathlib.Logic.Function.Basic

/-!
# Writes to the cells of a state

A state is read through cells, and a program writes values to some of them, in order. A program may fail at a cell
that is not there; when all its cells are, it ends, and the cells have the values that were written last. Where the
writes to each cell agree, their order does not matter.
-/

namespace Tulpje.Lib

section Cells
variable {σ ε C V : Type} [DecidableEq C]

/-- The cells after some writes. -/
def written (writes : List (C × V)) (cells : C → Option V) : C → Option V :=
  writes.foldl (fun cells write => Function.update cells write.1 (some write.2)) cells

theorem written_append (writes writes' : List (C × V)) (cells : C → Option V) :
    written (writes ++ writes') cells = written writes' (written writes cells) :=
  List.foldl_append

theorem written_of_notMem {writes : List (C × V)} {cell : C} (h : ∀ write ∈ writes, write.1 ≠ cell)
    (cells : C → Option V) : written writes cells cell = cells cell := by
  induction writes generalizing cells with
  | nil => rfl
  | cons write writes ih =>
    obtain ⟨hfirst, hrest⟩ := List.forall_mem_cons.mp h
    exact (ih hrest _).trans (Function.update_of_ne hfirst.symm ..)

/-- A cell that is there stays there. -/
theorem isSome_written (writes : List (C × V)) {cells : C → Option V} {cell : C} (h : (cells cell).isSome) :
    (written writes cells cell).isSome := by
  induction writes generalizing cells with
  | nil => exact h
  | cons write writes ih =>
    refine ih ?_
    dsimp only
    by_cases hcell : cell = write.1
    · rw [hcell, Function.update_self, Option.isSome_some]
    · rwa [Function.update_of_ne hcell]

/-- No two writes give different values to a cell. -/
def Agree (writes : List (C × V)) : Prop :=
  ∀ cell value value', (cell, value) ∈ writes → (cell, value') ∈ writes → value = value'

theorem written_of_mem {writes : List (C × V)} (hagree : Agree writes) {cell : C} {value : V}
    (h : (cell, value) ∈ writes) (cells : C → Option V) : written writes cells cell = some value := by
  induction writes using List.reverseRecOn with
  | nil => cases h
  | append_singleton writes last ih =>
    rw [written_append]
    by_cases hlast : last.1 = cell
    · have hvalue : value = last.2 := hagree cell value last.2 h (by simp [← hlast])
      rw [hvalue, ← hlast]
      exact Function.update_self ..
    · have hmem : (cell, value) ∈ writes :=
        (List.mem_append.mp h).resolve_right fun heq => hlast (by rw [← List.mem_singleton.mp heq])
      have hagree' : Agree writes := fun cell value value' hv hv' =>
        hagree cell value value' (List.mem_append_left _ hv) (List.mem_append_left _ hv')
      exact (Function.update_of_ne (Ne.symm hlast) ..).trans (ih hagree' hmem)

/-! ### Programs -/

theorem bind_eq {α β : Type} {first : EStateM ε σ α} {next : α → EStateM ε σ β} {s s' : σ} {a : α}
    (h : first.run s = .ok a s') : (first >>= next).run s = (next a).run s' := by
  rw [EStateM.run_bind, h]

variable (read : σ → C → Option V)

/-- On a state with all the cells of the writes the program ends, and has made them. -/
def Writes (program : EStateM ε σ Unit) (writes : List (C × V)) : Prop :=
  ∀ s, (∀ write ∈ writes, (read s write.1).isSome) →
    ∃ s', program.run s = .ok () s' ∧ read s' = written writes (read s)

variable {read} {program first second : EStateM ε σ Unit} {writes writes' : List (C × V)}

namespace Writes

theorem pure : Writes read (Pure.pure () : EStateM ε σ Unit) [] := fun s _ => ⟨s, rfl, rfl⟩

/-- A program that makes some writes and goes on like another one. -/
theorem after (hsecond : Writes read second writes')
    (h : ∀ s, (∀ write ∈ writes, (read s write.1).isSome) →
      ∃ s', program.run s = second.run s' ∧ read s' = written writes (read s)) :
    Writes read program (writes ++ writes') := by
  intro s hcells
  obtain ⟨s₁, heq, hread₁⟩ := h s fun write hwrite => hcells write (List.mem_append_left _ hwrite)
  obtain ⟨s₂, hok, hread₂⟩ := hsecond s₁ fun write hwrite =>
    hread₁ ▸ isSome_written writes (hcells write (List.mem_append_right _ hwrite))
  exact ⟨s₂, heq.trans hok, by rw [hread₂, hread₁, written_append]⟩

theorem bind (hfirst : Writes read first writes) (hsecond : Writes read second writes') :
    Writes read (do first; second) (writes ++ writes') := by
  refine hsecond.after fun s hcells => ?_
  obtain ⟨s', hok, hread⟩ := hfirst s hcells
  exact ⟨s', bind_eq hok, hread⟩

theorem forM {α : Type} {step : α → EStateM ε σ Unit} {writes : α → List (C × V)} (l : List α)
    (h : ∀ a ∈ l, Writes read (step a) (writes a)) : Writes read (l.forM step) (l.flatMap writes) := by
  induction l with
  | nil => exact .pure
  | cons a l ih =>
    obtain ⟨hfirst, hrest⟩ := List.forall_mem_cons.mp h
    exact hfirst.bind (ih hrest)

end Writes

end Cells

end Tulpje.Lib
