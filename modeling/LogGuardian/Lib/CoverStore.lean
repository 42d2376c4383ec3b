import Mathlib

/-!
# Stores of keys that cover points
-/

namespace CoverStore

universe u v

variable {Key : Type u} {Point : Type v} [DecidableEq Key]

/-- Some key of the store covers the point. -/
def Covered (covers : Key → Point → Prop) (store : List Key) (point : Point) : Prop :=
  ∃ key ∈ store, covers key point

instance (covers : Key → Point → Prop) [∀ key point, Decidable (covers key point)]
    (store : List Key) (point : Point) : Decidable (Covered covers store point) := by
  unfold Covered
  infer_instance

/-- Add a key unless it is there; a full store refuses. -/
def update (full : List Key → Bool) (key : Key) (store : List Key) : Bool × List Key :=
  if key ∈ store then (true, store)
  else if full store then (false, store)
  else (true, key :: store)

def delete (key : Key) (store : List Key) : List Key := store.filter (· ≠ key)

variable {covers : Key → Point → Prop} {store : List Key} {key : Key} {point : Point}

theorem mem_of_mem_update {full : List Key → Bool} {other : Key}
    (mem : other ∈ (update full key store).2) : other = key ∨ other ∈ store := by
  unfold update at mem
  split_ifs at mem
  · exact Or.inr mem
  · exact Or.inr mem
  · exact List.mem_cons.mp mem

theorem delete_eq_self_iff : delete key store = store ↔ key ∉ store := by
  rw [delete, List.filter_eq_self]
  constructor
  · intro all mem
    simpa using all key mem
  · intro absent other mem
    have different : other ≠ key := by
      rintro rfl
      exact absent mem
    simpa using different

theorem mem_update_of_succeeds {full : List Key → Bool} (succeeds : (update full key store).1 = true)
    (other : Key) : other ∈ (update full key store).2 ↔ other = key ∨ other ∈ store := by
  unfold update at succeeds ⊢
  by_cases stored : key ∈ store
  · simp only [stored]
    constructor
    · exact Or.inr
    · rintro (rfl | mem)
      · exact stored
      · exact mem
  · by_cases noRoom : full store = true
    · simp [stored, noRoom] at succeeds
    · simp [stored, noRoom]

theorem mem_delete (other : Key) : other ∈ delete key store ↔ other ∈ store ∧ other ≠ key := by
  simp [delete]

theorem covered_delete_if {happens : Prop} [Decidable happens] (outside : ¬covers key point) :
    Covered covers (if happens then delete key store else store) point ↔ Covered covers store point := by
  split
  · constructor
    · rintro ⟨other, mem, covering⟩
      exact ⟨other, ((mem_delete other).mp mem).1, covering⟩
    · rintro ⟨other, mem, covering⟩
      refine ⟨other, (mem_delete other).mpr ⟨mem, ?_⟩, covering⟩
      rintro rfl
      exact outside covering
  · exact Iff.rfl

theorem not_covered_delete_if {happens : Prop} [Decidable happens] :
    ¬Covered covers (if happens then delete key store else store) point ↔
      ∀ other ∈ store, covers other point → happens ∧ other = key := by
  constructor
  · intro uncovered other mem covering
    by_contra kept
    apply uncovered
    refine ⟨other, ?_, covering⟩
    split
    · rename_i happened
      rw [delete, List.mem_filter]
      exact ⟨mem, by simpa using fun same => kept ⟨happened, same⟩⟩
    · exact mem
  · rintro only ⟨other, mem, covering⟩
    split at mem
    · rw [delete, List.mem_filter] at mem
      have same := (only other mem.1 covering).2
      simp [same] at mem
    · rename_i idle
      exact idle (only other mem covering).1

end CoverStore
