import Mathlib

/-!
# Tokens

The tokens of a text: what stands between separators and is not empty.
-/

namespace Tokens

open List

universe u

variable {α : Type u} (separates : α → Bool)

def tokens (text : List α) : List (List α) :=
  (text.splitOnP separates).filter fun piece => !piece.isEmpty

/-- The pieces that end at a separator. -/
def ended (text : List α) : List (List α) := (text.splitOnP separates).dropLast

/-- The piece behind the last separator. -/
def unfinished (text : List α) : List α := (text.splitOnP separates).getLastD []

variable {separates}

theorem splitOnP_eq_ended (text : List α) :
    text.splitOnP separates = ended separates text ++ [unfinished separates text] := by
  rcases eq_nil_or_concat (text.splitOnP separates) with none | ⟨front, last, isSplit⟩
  · exact absurd none (splitOnP_ne_nil separates text)
  · simp [ended, unfinished, isSplit]

theorem splitOnP_append (first second : List α) :
    (first ++ second).splitOnP separates = ended separates first ++
      (second.splitOnP separates).modifyHead (unfinished separates first ++ ·) := by
  induction first with
  | nil =>
    rcases pieces : second.splitOnP separates with _ | ⟨piece, rest⟩
    · exact absurd pieces (splitOnP_ne_nil separates second)
    · simpa [ended, unfinished] using pieces
  | cons symbol first ih =>
    have whole := @splitOnP_eq_ended α separates (symbol :: first)
    have rest := @splitOnP_eq_ended α separates first
    rw [cons_append, splitOnP_cons_eq_if_modifyHead, ih]
    rw [splitOnP_cons_eq_if_modifyHead, rest] at whole
    split at whole
    · rename_i isSeparator
      rw [← cons_append] at whole
      rcases append_inj' whole rfl with ⟨sameEnded, sameUnfinished⟩
      rw [if_pos isSeparator, ← sameEnded, cons_append, ← List.singleton_inj.mp sameUnfinished]
    · rename_i notSeparator
      rw [if_neg notSeparator]
      rcases pieces : ended separates first with _ | ⟨piece, pieces'⟩
      · rw [pieces] at whole
        have same : [] ++ [symbol :: unfinished separates first] =
            ended separates (symbol :: first) ++ [unfinished separates (symbol :: first)] := whole
        rcases append_inj' same rfl with ⟨sameEnded, sameUnfinished⟩
        rw [← sameEnded, ← List.singleton_inj.mp sameUnfinished, nil_append,
          modifyHead_modifyHead]
        rfl
      · rw [pieces] at whole
        have same : (symbol :: piece) :: pieces' ++ [unfinished separates first] =
            ended separates (symbol :: first) ++ [unfinished separates (symbol :: first)] := whole
        rcases append_inj' same rfl with ⟨sameEnded, sameUnfinished⟩
        rw [← sameEnded, ← List.singleton_inj.mp sameUnfinished]
        rfl

theorem tokens_eq_ended (text : List α) : tokens separates text =
    (ended separates text).filter (fun piece => !piece.isEmpty) ++
      [unfinished separates text].filter fun piece => !piece.isEmpty := by
  rw [tokens, splitOnP_eq_ended, filter_append]

theorem mem_tokens_append_of_ended {first token : List α} (second : List α)
    (mem : token ∈ (ended separates first).filter fun piece => !piece.isEmpty) :
    token ∈ tokens separates (first ++ second) := by
  rw [mem_filter] at mem
  rw [tokens, mem_filter, splitOnP_append]
  exact ⟨mem_append_left _ mem.1, mem.2⟩

theorem unfinished_mem_tokens_append {first second : List α}
    (nonempty : unfinished separates first ≠ [])
    (stops : ∀ symbol ∈ second.head?, separates symbol = true) :
    unfinished separates first ∈ tokens separates (first ++ second) := by
  rw [tokens, mem_filter, splitOnP_append]
  refine ⟨mem_append_right _ ?_, by simpa using nonempty⟩
  rcases second with _ | ⟨symbol, second⟩
  · simp
  · rw [splitOnP_cons_eq_if_modifyHead, if_pos (stops symbol rfl)]
    simp

theorem length_tokens_le (first second : List α) :
    (tokens separates first).length ≤ (tokens separates (first ++ second)).length := by
  rw [tokens_eq_ended, tokens, splitOnP_append, filter_append, length_append,
    length_append]
  apply Nat.add_le_add_left
  rcases pieces : second.splitOnP separates with _ | ⟨piece, rest⟩
  · exact absurd pieces (splitOnP_ne_nil separates second)
  · rcases unfinished separates first with _ | ⟨symbol, more⟩
    · exact Nat.zero_le _
    · simp

theorem tokens_append_of_separators {blank : List α} (separators : ∀ symbol ∈ blank, separates symbol = true)
    (text : List α) : tokens separates (blank ++ text) = tokens separates text := by
  induction blank with
  | nil => rfl
  | cons symbol blank ih =>
    rcases List.forall_mem_cons.mp separators with ⟨isSeparator, rest⟩
    rw [cons_append, tokens, splitOnP_cons_eq_if_modifyHead, if_pos isSeparator]
    exact ih rest

theorem tokens_of_plain {text : List α} (nonempty : text ≠ [])
    (plain : ∀ symbol ∈ text, separates symbol = false) : tokens separates text = [text] := by
  have single : text.splitOnP separates = [text] :=
    splitOnP_eq_singleton plain
  rw [tokens, single]
  simpa using nonempty

end Tokens
