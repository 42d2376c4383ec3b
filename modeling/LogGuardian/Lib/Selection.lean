import Mathlib

/-!
# The first few elements of a sorted list

A sort by a key may put equal keys in any order.
-/

namespace Selection

open List

universe u

variable {α : Type u} {key : α → ℕ}

variable {sorted list : List α} {count : ℕ} {element : α}

theorem countP_lt_of_mem_take (ordered : sorted.Pairwise fun first second => key first ≤ key second)
    (taken : element ∈ sorted.take count) :
    sorted.countP (fun other => key other < key element) < count := by
  rcases List.mem_iff_append.mp taken with ⟨front, back, parts⟩
  have whole : sorted = front ++ (element :: back ++ sorted.drop count) := by
    rw [← append_assoc, ← parts, take_append_drop]
  have short : front.length < count := by
    have bound := length_take_le count sorted
    rw [parts, length_append, length_cons] at bound
    omega
  have none_behind : (element :: back ++ sorted.drop count).countP
      (fun other => key other < key element) = 0 := by
    rw [whole, pairwise_append] at ordered
    rw [countP_eq_zero]
    intro other mem
    rw [decide_eq_true_eq, not_lt]
    rcases List.mem_cons.mp mem with rfl | behind
    · exact le_rfl
    · exact rel_of_pairwise_cons ordered.2.1 behind
  rw [whole, countP_append, none_behind]
  exact lt_of_le_of_lt countP_le_length short

theorem mem_drop_of_not_mem_take (mem : element ∈ list) (left_out : element ∉ list.take count) :
    element ∈ list.drop count := by
  rw [← take_append_drop count list, mem_append] at mem
  exact mem.resolve_left left_out

theorem length_take_of_mem_drop (dropped : element ∈ list.drop count) :
    (list.take count).length = count := by
  have positive := length_pos_of_mem dropped
  rw [length_drop] at positive
  rw [length_take]
  omega

theorem lt_countP_of_not_mem_take
    (ordered : sorted.Pairwise fun first second => key first ≤ key second) (mem : element ∈ sorted)
    (left_out : element ∉ sorted.take count) :
    count < sorted.countP (fun other => key other ≤ key element) := by
  have dropped := mem_drop_of_not_mem_take mem left_out
  rw [← take_append_drop count sorted, pairwise_append] at ordered
  have front : (sorted.take count).countP (fun other => key other ≤ key element) = count := by
    rw [List.countP_eq_length.mpr, length_take_of_mem_drop dropped]
    intro other taken
    simpa using ordered.2.2 other taken element dropped
  have back : 0 < (sorted.drop count).countP (fun other => key other ≤ key element) :=
    List.countP_pos_iff.mpr ⟨element, dropped, by simp⟩
  rw [← take_append_drop count sorted, countP_append]
  omega

/-- Sort by a key, and equal keys by a second one. -/
def sortBy (key rank : α → ℕ) (list : List α) : List α :=
  list.mergeSort fun first second =>
    decide (toLex (key first, rank first) ≤ toLex (key second, rank second))

variable {rank : α → ℕ}

theorem sortBy_perm (key rank : α → ℕ) (list : List α) : (sortBy key rank list).Perm list :=
  mergeSort_perm list _

theorem pairwise_sortBy (key rank : α → ℕ) (list : List α) :
    (sortBy key rank list).Pairwise fun first second =>
      toLex (key first, rank first) ≤ toLex (key second, rank second) := by
  have sorted := @pairwise_mergeSort α (fun first second =>
    decide (toLex (key first, rank first) ≤ toLex (key second, rank second)))
      (fun first second third => by simpa using le_trans)
      (fun first second => by simpa using le_total _ _) list
  exact sorted.imp of_decide_eq_true

theorem pairwise_key_sortBy (key rank : α → ℕ) (list : List α) :
    (sortBy key rank list).Pairwise fun first second => key first ≤ key second := by
  apply (pairwise_sortBy key rank list).imp
  intro first second before
  rcases Prod.Lex.toLex_le_toLex.mp before with smaller | ⟨same, -⟩
  · exact le_of_lt smaller
  · exact le_of_eq same

theorem mem_take_sortBy (mem : element ∈ list)
    (first : ∀ other, rank other ≤ rank element → other = element)
    (room : list.countP (fun other => key other < key element) < count) :
    element ∈ (sortBy key rank list).take count := by
  by_contra left_out
  have sorted := pairwise_sortBy key rank list
  have dropped := mem_drop_of_not_mem_take ((sortBy_perm key rank list).mem_iff.mpr mem) left_out
  rw [← (sortBy_perm key rank list).countP_eq] at room
  rw [← take_append_drop count (sortBy key rank list), pairwise_append] at sorted
  have front : ((sortBy key rank list).take count).countP
      (fun other => key other < key element) = count := by
    rw [List.countP_eq_length.mpr, length_take_of_mem_drop dropped]
    intro other taken
    rw [decide_eq_true_eq]
    rcases Prod.Lex.toLex_le_toLex.mp (sorted.2.2 other taken element dropped) with
      smaller | ⟨-, tie⟩
    · exact smaller
    · exact absurd (first other tie ▸ taken) left_out
  rw [← take_append_drop count (sortBy key rank list), countP_append] at room
  omega

theorem not_mem_take_sortBy (distinct : list.Nodup)
    (last : ∀ other, rank element ≤ rank other → other = element)
    (full : count < list.countP (fun other => key other ≤ key element)) :
    element ∉ (sortBy key rank list).take count := by
  intro taken
  have sorted := pairwise_sortBy key rank list
  rw [← (sortBy_perm key rank list).nodup_iff,
    ← take_append_drop count (sortBy key rank list), nodup_append] at distinct
  rw [← take_append_drop count (sortBy key rank list), pairwise_append] at sorted
  have back : ((sortBy key rank list).drop count).countP
      (fun other => key other ≤ key element) = 0 := by
    rw [countP_eq_zero]
    intro other dropped
    rw [decide_eq_true_eq, not_le]
    rcases Prod.Lex.toLex_le_toLex.mp (sorted.2.2 element taken other dropped) with
      smaller | ⟨-, tie⟩
    · exact smaller
    · exact absurd (last other tie).symm (distinct.2.2 element taken other dropped)
  rw [← (sortBy_perm key rank list).countP_eq, ← take_append_drop count (sortBy key rank list),
    countP_append] at full
  have front := @countP_le_length _ (fun other => decide (key other ≤ key element))
    ((sortBy key rank list).take count)
  have bound := length_take_le count (sortBy key rank list)
  omega

end Selection
