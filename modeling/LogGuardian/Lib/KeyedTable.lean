import Mathlib

/-!
# Tables with a primary key

A table is a list of rows whose keys are distinct.
-/

universe u v

/-- Rows with distinct keys. -/
structure KeyedTable {α : Type u} {κ : Type v} (key : α → κ) where
  rows : List α
  nodup : (rows.map key).Nodup

namespace KeyedTable

open List

variable {α : Type u} {κ : Type v} {key : α → κ}

def empty : KeyedTable key := ⟨[], List.nodup_nil⟩

/-- Adding a row; a key that is taken is refused. -/
def insert [DecidableEq κ] (table : KeyedTable key) (row : α) : KeyedTable key :=
  if fresh : key row ∉ table.rows.map key then
    ⟨table.rows ++ [row], by
      rw [List.map_append, List.map_singleton, List.nodup_append]
      refine ⟨table.nodup, List.nodup_singleton _, ?_⟩
      intro old mem new isNew same
      rw [List.mem_singleton.mp isNew] at same
      exact fresh (same ▸ mem)⟩
  else table

/-- Changing every row. -/
def modify (table : KeyedTable key) (change : α → α) (keeps : ∀ row, key (change row) = key row) :
    KeyedTable key :=
  ⟨table.rows.map change, by
    have same : key ∘ change = key := funext keeps
    rw [List.map_map, same]
    exact table.nodup⟩

variable {table : KeyedTable key} {row new : α}

theorem eq_of_key_eq {first second : α} (memFirst : first ∈ table.rows)
    (memSecond : second ∈ table.rows) (same : key first = key second) : first = second :=
  inj_on_of_nodup_map table.nodup memFirst memSecond same

theorem mem_insert_of_mem [DecidableEq κ] (mem : row ∈ table.rows) :
    row ∈ (table.insert new).rows := by
  unfold insert
  split
  · exact mem_append_left _ mem
  · exact mem

theorem mem_insert_self [DecidableEq κ] (fresh : key new ∉ table.rows.map key) :
    new ∈ (table.insert new).rows := by
  rw [insert, dif_pos fresh]
  simp

theorem mem_of_mem_insert [DecidableEq κ] (mem : row ∈ (table.insert new).rows) :
    row ∈ table.rows ∨ row = new ∧ key new ∉ table.rows.map key := by
  unfold insert at mem
  split at mem
  · rename_i fresh
    rcases List.mem_append.mp mem with old | added
    · exact Or.inl old
    · exact Or.inr ⟨List.mem_singleton.mp added, fresh⟩
  · exact Or.inl mem

end KeyedTable
