import Mathlib.Data.Finset.Insert
import Mathlib.Data.Finset.Filter

/-!
# Tables

A table with a primary key: finitely many rows, at most one for each key. `upsert` is
`INSERT … ON CONFLICT DO UPDATE`, `deleteWhere` is `DELETE … WHERE`, `delete` that of one key.
-/

namespace Tulpje.Lib

structure Table (K V : Type) where
  keys : Finset K
  row : K → Option V
  mem_keys : ∀ k, k ∈ keys ↔ (row k).isSome = true

namespace Table

variable {K V : Type} (t : Table K V)

def empty : Table K V := ⟨∅, fun _ => none, by simp⟩

def deleteWhere (p : K → V → Bool) : Table K V where
  keys := t.keys.filter fun k => (t.row k).any fun v => !p k v
  row k := (t.row k).filter fun v => !p k v
  mem_keys k := by
    rw [Finset.mem_filter, t.mem_keys]
    rcases t.row k with _ | v
    · simp
    · cases h : p k v <;> simp [h]

@[simp] theorem row_deleteWhere (p : K → V → Bool) (k : K) :
    (t.deleteWhere p).row k = (t.row k).filter fun v => !p k v := rfl

variable [DecidableEq K]

def delete (k : K) : Table K V := t.deleteWhere fun k' _ => decide (k' = k)

@[simp] theorem row_delete_self (k : K) : (t.delete k).row k = none := by simp [delete]

@[simp] theorem row_delete_of_ne {k k' : K} (h : k' ≠ k) : (t.delete k).row k' = t.row k' := by
  cases hrow : t.row k' <;> simp [delete, h, hrow]

def upsert (k : K) (v : V) : Table K V where
  keys := insert k t.keys
  row := Function.update t.row k (some v)
  mem_keys k' := by
    rw [Finset.mem_insert, t.mem_keys]
    by_cases hk : k' = k
    · simp [hk]
    · simp [hk]

@[simp] theorem row_upsert_self (k : K) (v : V) : (t.upsert k v).row k = some v :=
  Function.update_self ..

@[simp] theorem row_upsert_of_ne {k k' : K} (h : k' ≠ k) (v : V) : (t.upsert k v).row k' = t.row k' :=
  Function.update_of_ne h ..

end Table

end Tulpje.Lib
