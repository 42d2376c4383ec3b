import Mathlib

/-!
# Substring search

First occurrence of a pattern in a text, over an arbitrary alphabet.
-/

namespace Search

universe u

variable {α : Type u} [DecidableEq α]

/-- Offset of the first occurrence of `pattern` in a text. -/
def find (pattern : List α) : List α → Option ℕ
  | [] => if pattern = [] then some 0 else none
  | head :: rest =>
    if pattern <+: head :: rest then some 0 else (find pattern rest).map (· + 1)

/-- The text that follows the first occurrence of `pattern`. -/
def after (pattern text : List α) : Option (List α) :=
  (find pattern text).map fun offset => text.drop (offset + pattern.length)

variable {pattern text item : List α} {offset : ℕ} {separator : α}

theorem find_isSome_iff :
    (find pattern text).isSome ↔ pattern <:+: text := by
  induction text with
  | nil =>
    by_cases empty : pattern = []
    · simp [find]
    · simp [find]
  | cons head rest ih =>
    by_cases here : pattern <+: head :: rest
    · simp [find, here, here.isInfix]
    · simp [find, here, ih, List.infix_cons_iff]

theorem find_eq_none_iff :
    find pattern text = none ↔ ¬pattern <:+: text := by
  rw [← find_isSome_iff, Option.not_isSome_iff_eq_none]

theorem prefix_drop_of_find (found : find pattern text = some offset) :
    pattern <+: text.drop offset := by
  induction text generalizing offset with
  | nil =>
    by_cases empty : pattern = []
    · simp [empty]
    · simp [find, empty] at found
  | cons head rest ih =>
    by_cases here : pattern <+: head :: rest
    · simp only [find, here, if_true, Option.some.injEq] at found
      subst found
      simpa using here
    · simp only [find, here, if_false, Option.map_eq_some_iff] at found
      rcases found with ⟨previous, foundRest, rfl⟩
      simpa using ih foundRest

theorem not_prefix_drop_of_lt_find {earlier : ℕ} (found : find pattern text = some offset)
    (before : earlier < offset) :
    ¬pattern <+: text.drop earlier := by
  induction text generalizing offset earlier with
  | nil =>
    by_cases empty : pattern = []
    · simp only [find, empty, if_true, Option.some.injEq] at found
      omega
    · simp [find, empty] at found
  | cons head rest ih =>
    by_cases here : pattern <+: head :: rest
    · simp only [find, here, if_true, Option.some.injEq] at found
      omega
    · simp only [find, here, if_false, Option.map_eq_some_iff] at found
      rcases found with ⟨previous, foundRest, rfl⟩
      rcases earlier with _ | earlier
      · simpa using here
      · simpa using ih foundRest (by omega)

theorem find_eq_some_of_first {pattern text : List α} {offset : ℕ}
    (inside : offset ≤ text.length) (stands : pattern <+: text.drop offset)
    (first : ∀ earlier < offset, ¬pattern <+: text.drop earlier) :
    find pattern text = some offset := by
  induction text generalizing offset with
  | nil =>
    have zero : offset = 0 := by simpa using inside
    subst zero
    have empty : pattern = [] := by simpa using stands
    simp [find, empty]
  | cons head rest ih =>
    rcases offset with _ | offset
    · have here : pattern <+: head :: rest := by simpa using stands
      simp [find, here]
    · have notHere : ¬pattern <+: head :: rest := by simpa using first 0 (by omega)
      have foundRest : find pattern rest = some offset := by
        apply ih
        · simpa using inside
        · simpa using stands
        · intro earlier before
          simpa using first (earlier + 1) (by omega)
      simp [find, notHere, foundRest]

omit [DecidableEq α] in
theorem infix_intercalate {separator item : List α} {items : List (List α)}
    (mem : item ∈ items) : item <:+: separator.intercalate items := by
  induction items with
  | nil => cases mem
  | cons first rest ih =>
    rcases rest with _ | ⟨second, rest⟩
    · simp only [List.mem_singleton] at mem
      subst mem
      simp
    · rw [List.intercalate_cons_cons]
      rcases List.mem_cons.mp mem with rfl | later
      · exact ⟨[], separator ++ separator.intercalate (second :: rest), by simp⟩
      · exact (ih later).trans ⟨first ++ separator, [], by simp⟩

theorem infix_of_mem_splitOn (mem : item ∈ text.splitOn separator) : item <:+: text := by
  have joined : [separator].intercalate (text.splitOn separator) = text :=
    List.intercalate_splitOn separator
  have part : item <:+: [separator].intercalate (text.splitOn separator) := infix_intercalate mem
  rwa [joined] at part

theorem not_mem_of_mem_splitOn (mem : item ∈ text.splitOn separator) : separator ∉ item := by
  induction text generalizing item with
  | nil => simp_all
  | cons head rest ih =>
    rw [List.splitOn_cons_eq_if_modifyHead] at mem
    split at mem
    · rcases List.mem_cons.mp mem with rfl | later
      · simp
      · exact ih later
    · rename_i other
      rcases items : rest.splitOn separator with _ | ⟨first, items⟩
      · exact absurd items (List.splitOn_ne_nil _ _)
      · rw [items] at ih mem
        rcases List.mem_cons.mp mem with rfl | later
        · have notHead : separator ≠ head := fun same => other (by simp [same])
          have notFirst : separator ∉ first := ih (by simp)
          simp [notHead, notFirst]
        · exact ih (by simp [later])

end Search
