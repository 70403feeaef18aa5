import Tulpje.Lib.Table

/-!
# Inserting or updating

`INSERT … ON CONFLICT DO UPDATE` with the two lists of columns that it has: what is inserted, and what is updated
if there is a row already. After a run of such saves, a column of both lists has the value of the last save
(`column_of_updated`), and one of the first list only that of the first save (`column_of_kept`).
-/

namespace Tulpje.Lib

/-- The saves of type `S` into a table. -/
structure Upsert (S K V : Type) where
  key : S → K
  insert : S → V
  update : S → V → V

namespace Upsert

variable {S K V C : Type} [DecidableEq K] (u : Upsert S K V)

/-- The row after a save. -/
def value (old : Option V) (s : S) : V := old.elim (u.insert s) (u.update s)

def save (t : Table K V) (s : S) : Table K V := t.upsert (u.key s) (u.value (t.row (u.key s)) s)

/-- The saves with this key. -/
def savesFor (k : K) (saves : List S) : List S := saves.filter fun s => u.key s = k

/-- The last save with its key. -/
def IsLast (saves : List S) (s : S) : Prop := (u.savesFor (u.key s) saves).getLast? = some s

theorem row_save (t : Table K V) (s : S) (k : K) :
    (u.save t s).row k = if u.key s = k then some (u.value (t.row k) s) else t.row k := by
  unfold save
  split_ifs with hk
  · subst hk
    exact Table.row_upsert_self ..
  · exact Table.row_upsert_of_ne _ (Ne.symm hk) _

/-- A row depends on the saves with its key only. -/
theorem row_run (t : Table K V) (saves : List S) (k : K) :
    (saves.foldl u.save t).row k =
      (u.savesFor k saves).foldl (fun row s => some (u.value row s)) (t.row k) := by
  induction saves generalizing t with
  | nil => rfl
  | cons s saves ih =>
    rw [List.foldl_cons, ih, row_save, savesFor, savesFor, List.filter_cons]
    by_cases hk : u.key s = k
    · simp [hk]
    · simp [hk]

theorem row_run_of_unsaved {t : Table K V} {saves : List S} {k : K} (h : u.savesFor k saves = []) :
    (saves.foldl u.save t).row k = t.row k := by
  rw [row_run, h]
  rfl

variable {u} {given : S → C} {t : Table K V} {saves : List S} {k : K} {s : S}

theorem column_of_updated (col : V → C) (hinsert : ∀ s, col (u.insert s) = given s)
    (hupdate : ∀ s v, col (u.update s v) = given s) (h : u.IsLast saves s) :
    ((saves.foldl u.save t).row (u.key s)).map col = some (given s) := by
  obtain ⟨before, hbefore⟩ := List.getLast?_eq_some_iff.mp h
  rw [row_run, hbefore, List.foldl_append, List.foldl_cons, List.foldl_nil, Option.map_some, value]
  cases before.foldl (fun row s => some (u.value row s)) (t.row (u.key s)) with
  | none => exact congrArg some (hinsert s)
  | some v => exact congrArg some (hupdate s v)

theorem column_of_kept (col : V → C) (hinsert : ∀ s, col (u.insert s) = given s)
    (hupdate : ∀ s v, col (u.update s v) = col v) :
    ((saves.foldl u.save t).row k).map col =
      ((t.row k).map col).or ((u.savesFor k saves).head?.map given) := by
  have hkeep : ∀ (v : V) (saves : List S),
      (saves.foldl (fun row s => some (u.value row s)) (some v)).map col = some (col v) := by
    intro v saves
    induction saves generalizing v with
    | nil => rfl
    | cons s saves ih => exact (ih _).trans (congrArg some (hupdate s v))
  rw [row_run]
  cases t.row k with
  | some v => exact hkeep v _
  | none =>
    cases u.savesFor k saves with
    | nil => rfl
    | cons s saves => exact (hkeep _ _).trans (congrArg some (hinsert s))

end Upsert

end Tulpje.Lib
