import Mathlib

/-!
# Fields joined by a separator
-/

namespace Delimited

open List

universe u

variable {α : Type u} {separator : α}

theorem intercalate_cons_eq_append_flatMap (first : List α) (rest : List (List α)) :
    [separator].intercalate (first :: rest) = first ++ rest.flatMap (separator :: ·) := by
  induction rest generalizing first with
  | nil => simp
  | cons second rest ih => simp [ih]

section Count

variable [DecidableEq α]

theorem count_intercalate (separator : α) {fields : List (List α)} (nonempty : fields ≠ []) :
    ([separator].intercalate fields).count separator + 1 =
      fields.length + (fields.map (List.count separator)).sum := by
  induction fields with
  | nil => exact absurd rfl nonempty
  | cons first rest ih =>
    rcases rest with _ | ⟨second, rest⟩
    · simp
      omega
    · have later := ih (by simp)
      rw [intercalate_cons_cons]
      simp only [count_append, count_singleton_self, length_cons, map_cons,
        sum_cons] at later ⊢
      omega

theorem eq_of_intercalate_eq {fields other : List (List α)} (length : other.length = fields.length)
    (nonempty : fields ≠ []) (plain : ∀ field ∈ fields, separator ∉ field)
    (joined : [separator].intercalate other = [separator].intercalate fields) : other = fields := by
  have otherNonempty : other ≠ [] := by
    rintro rfl
    exact nonempty (List.length_eq_zero_iff.mp length.symm)
  have none : (fields.map (count separator)).sum = 0 := by
    rw [sum_eq_zero_iff]
    intro count mem
    rcases List.mem_map.mp mem with ⟨field, isField, rfl⟩
    exact List.count_eq_zero.mpr (plain field isField)
  have counts : (other.map (count separator)).sum = 0 := by
    have here := count_intercalate separator nonempty
    have there := count_intercalate separator otherNonempty
    rw [joined] at there
    omega
  have otherPlain : ∀ field ∈ other, separator ∉ field := by
    intro field mem
    apply List.count_eq_zero.mp
    exact List.sum_eq_zero_iff.mp counts _ (mem_map_of_mem mem)
  rw [← splitOn_intercalate separator otherPlain otherNonempty, joined,
    splitOn_intercalate separator plain nonempty]

end Count

theorem exists_resplit {fields : List (List α)} (two : 2 ≤ fields.length) {field : List α}
    (mem : field ∈ fields) (inside : separator ∈ field) :
    ∃ other : List (List α), other.length = fields.length ∧
      [separator].intercalate other = [separator].intercalate fields ∧ other ≠ fields := by
  rcases List.mem_iff_append.mp inside with ⟨before, after, split⟩
  induction fields with
  | nil => cases mem
  | cons first rest ih =>
    rcases rest with _ | ⟨second, rest⟩
    · simp at two
    rcases List.mem_cons.mp mem with rfl | later
    · refine ⟨before :: (after ++ separator :: second) :: rest, by simp, ?_, ?_⟩
      · rcases rest with _ | ⟨third, rest⟩
        · simp [split]
        · simp [split]
      · intro same
        have lengths := congrArg length (List.cons.inj same).1
        simp [split] at lengths
    · rcases rest with _ | ⟨third, rest⟩
      · rw [List.mem_singleton.mp later] at split
        refine ⟨[first ++ separator :: before, after], by simp, ?_, ?_⟩
        · simp [split]
        · intro same
          have lengths := congrArg length (List.cons.inj same).1
          simp at lengths
      · rcases ih (by simp) later with ⟨other, length, joined, differs⟩
        refine ⟨first :: other, by simp [length], ?_, ?_⟩
        · rcases other with _ | ⟨otherFirst, other⟩
          · simp at length
          · rw [intercalate_cons_cons, joined]
            exact List.intercalate_cons_cons.symm
        · intro same
          exact differs (List.cons.inj same).2

end Delimited
