import LogGuardian.Lib.Search

/-!
# Searching for a key in quoted text

Where a pattern can start in a text that is put together from parts.
-/

namespace Search

open List

universe u

variable {α : Type u} [DecidableEq α]

/-- No occurrence of the pattern starts in `part` when `rest` follows it. -/
def Passes (pattern part rest : List α) : Prop :=
  ∀ offset < part.length, ¬pattern <+: (part ++ rest).drop offset

variable {pattern rest part text : List α}

omit [DecidableEq α] in
theorem passes_nil : Passes pattern [] rest := by
  intro offset inside
  simp at inside

omit [DecidableEq α] in
theorem passes_append {first second : List α} (passesFirst : Passes pattern first (second ++ rest))
    (passesSecond : Passes pattern second rest) :
    Passes pattern (first ++ second) rest := by
  intro offset inside
  rw [append_assoc]
  rcases Nat.lt_or_ge offset first.length with early | late
  · exact passesFirst offset early
  · rw [drop_append, drop_of_length_le late]
    apply passesSecond
    simp only [length_append] at inside
    omega

theorem find_append (passes : Passes pattern part rest) :
    find pattern (part ++ rest) = (find pattern rest).map (· + part.length) := by
  induction part with
  | nil => simp
  | cons head part ih =>
    have notHere : ¬pattern <+: head :: (part ++ rest) := by
      simpa using passes 0 (by simp)
    have passesPart : Passes pattern part rest := by
      intro offset inside
      simpa using passes (offset + 1) (by simpa using inside)
    rw [cons_append, find, if_neg notHere, ih passesPart, Option.map_map]
    rfl

theorem find_append_of_isPrefix (passes : Passes pattern part rest) (stands : pattern <+: rest) :
    find pattern (part ++ rest) = some part.length := by
  have here : find pattern rest = some 0 := by
    apply find_eq_some_of_first (by omega)
    · simpa using stands
    · intro earlier before
      omega
  simp [find_append passes, here]

/-- The part differs from the pattern at every offset, whatever follows. -/
def Clashes (pattern part : List α) : Prop :=
  ∀ offset < part.length, ¬part.drop offset <+: pattern ∧ ¬pattern <+: part.drop offset

instance (pattern part : List α) : Decidable (Clashes pattern part) := by
  unfold Clashes
  infer_instance

omit [DecidableEq α] in
theorem passes_of_clashes (clashes : Clashes pattern part) (rest : List α) :
    Passes pattern part rest := by
  intro offset inside stands
  have split : (part ++ rest).drop offset = part.drop offset ++ rest := by
    rw [drop_append_of_le_length (by omega)]
  rw [split] at stands
  rcases prefix_or_prefix_of_prefix stands (prefix_append _ _) with shorter | longer
  · exact (clashes offset inside).2 shorter
  · exact (clashes offset inside).1 longer

omit [DecidableEq α] in
theorem passes_of_stop {pattern part rest : List α} {stop : α} (foreign : stop ∉ pattern)
    (absent : ¬pattern <:+: part) : Passes pattern (part ++ [stop]) rest := by
  intro offset inside stands
  rw [List.append_assoc, List.drop_append_of_le_length (by simp at inside; omega)] at stands
  rcases List.prefix_or_prefix_of_prefix stands (List.prefix_append _ _) with before | ⟨more, whole⟩
  · exact absent (before.isInfix.trans (List.drop_suffix _ _).isInfix)
  · rw [← whole, List.prefix_append_right_inj] at stands
    rcases more with _ | ⟨first, more⟩
    · apply absent
      rw [← whole, List.append_nil]
      exact (List.drop_suffix _ _).isInfix
    · rcases List.cons_prefix_cons.mp stands with ⟨rfl, -⟩
      exact foreign (by rw [← whole]; simp)

omit [DecidableEq α] in
theorem passes_of_head_not_mem {first : α} (absent : first ∉ part) (rest : List α) :
    Passes (first :: pattern) part rest := by
  intro offset inside stands
  rw [drop_append_of_le_length (by omega), drop_eq_getElem_cons inside] at stands
  rcases List.cons_prefix_cons.mp stands with ⟨here, -⟩
  exact absent (here ▸ getElem_mem inside)

omit [DecidableEq α] in
theorem infix_of_append_cons {left right : List α} {stop : α} (foreign : stop ∉ pattern)
    (stands : pattern <:+: left ++ stop :: right) : pattern <:+: left ∨ pattern <:+: right := by
  rcases stands with ⟨before, rest, whole⟩
  rcases List.append_eq_append_iff.mp whole with ⟨middle, inLeft, -⟩ | ⟨middle, outLeft, tail⟩
  · exact Or.inl ⟨before, middle, inLeft.symm⟩
  · rcases middle with _ | ⟨first, middle⟩
    · exact Or.inl ⟨before, [], by simpa using outLeft⟩
    · rcases List.cons.inj tail with ⟨rfl, inRight⟩
      rcases List.append_eq_append_iff.mp outLeft with ⟨part, -, inPattern⟩ | ⟨part, -, inMiddle⟩
      · exact absurd (by simp [inPattern]) foreign
      · rcases part with _ | ⟨first, part⟩
        · rw [nil_append] at inMiddle
          exact absurd (by simp [← inMiddle]) foreign
        · rcases List.cons.inj inMiddle with ⟨-, inMiddle⟩
          exact Or.inr ⟨part, rest, by simp [inRight, inMiddle]⟩

theorem after_append (passes : Passes pattern part rest) :
    after pattern (part ++ rest) = after pattern rest := by
  unfold after
  rw [find_append passes, Option.map_map]
  apply congrArg (Option.map · _)
  funext offset
  rw [Function.comp_apply, Nat.add_right_comm, Nat.add_comm, drop_length_add_append]

theorem after_pattern (passes : Passes pattern part (pattern ++ rest)) :
    after pattern (part ++ (pattern ++ rest)) = some rest := by
  unfold after
  rw [find_append_of_isPrefix passes (prefix_append _ _), Option.map_some,
    drop_length_add_append, drop_left]

theorem after_drop_of_find {offset : ℕ} (found : find pattern text = some offset) :
    after pattern (text.drop offset) = after pattern text := by
  rcases prefix_drop_of_find found with ⟨rest, split⟩
  have here : after pattern (text.drop offset) = some rest := by
    rw [← split]
    exact after_pattern passes_nil
  rw [here, after, found, Option.map_some, ← drop_drop, ← split, drop_left]

theorem find_take {count : ℕ} (nonempty : pattern ≠ []) :
    find pattern (text.take count) =
      (find pattern text).filter fun offset => offset + pattern.length ≤ count := by
  have inText : ∀ offset, pattern <+: (text.take count).drop offset →
      pattern <+: text.drop offset ∧ offset + pattern.length ≤ count := by
    intro offset stands
    have short := stands.length_le
    have positive := List.length_pos_iff.mpr nonempty
    simp only [length_drop, length_take] at short
    rw [drop_take] at stands
    exact ⟨stands.trans ( take_prefix _ _), by omega⟩
  rcases found : find pattern text with _ | first
  · rw [Option.filter_none, find_eq_none_iff]
    intro inside
    exact find_eq_none_iff.mp found (inside.trans ( take_prefix _ _).isInfix)
  · have stands := prefix_drop_of_find found
    by_cases fits : first + pattern.length ≤ count
    · rw [Option.filter_some, if_pos (by simpa using fits)]
      have bound := stands.length_le
      have positive := List.length_pos_iff.mpr nonempty
      simp only [length_drop] at bound
      apply find_eq_some_of_first
      · simp only [length_take]
        omega
      · rw [drop_take]
        exact List.prefix_take_iff.mpr ⟨stands, by omega⟩
      · intro earlier before early
        exact not_prefix_drop_of_lt_find found before (inText earlier early).1
    · rw [Option.filter_some, if_neg (by simpa using fits)]
      rcases other : find pattern (text.take count) with _ | offset
      · rfl
      · rcases inText offset (prefix_drop_of_find other) with ⟨later, inside⟩
        have before : offset < first := by omega
        exact absurd later (not_prefix_drop_of_lt_find found before)

section Quoted

variable {quote escape separator : α}

/-- Every quote of the text is escaped. -/
def Escaped (quote escape : α) (text : List α) : Prop :=
  ∀ before after, text = before ++ quote :: after → ∃ front, before = front ++ [escape]

variable {text rest : List α} {next : α}

omit [DecidableEq α] in
theorem escaped_of_not_mem (plain : quote ∉ text) : Escaped quote escape text := by
  rintro before after rfl
  simp at plain

omit [DecidableEq α] in
theorem escaped_append {first second : List α} (escapedFirst : Escaped quote escape first)
    (escapedSecond : Escaped quote escape second) : Escaped quote escape (first ++ second) := by
  intro before after split
  rcases List.append_eq_append_iff.mp split with ⟨middle, inBefore, inSecond⟩ | ⟨middle, inFirst, inAfter⟩
  · rcases escapedSecond middle after inSecond with ⟨front, rfl⟩
    exact ⟨first ++ front, by simp [inBefore]⟩
  · rcases middle with _ | ⟨head, middle⟩
    · rcases escapedSecond [] after inAfter.symm with ⟨front, empty⟩
      simp at empty
    · rw [cons_append, List.cons.injEq] at inAfter
      rw [← inAfter.1] at inFirst
      exact escapedFirst before middle inFirst

/-- A quoted key with what follows it. -/
def keyPattern (quote separator : α) (key last : List α) : List α :=
  quote :: (key ++ quote :: separator :: last)

variable {key last : List α}

theorem not_key_prefix (plainKey : quote ∉ key) (noEscape : escape ∉ key)
    (escaped : ∀ before after, text = before ++ quote :: after → escape ∈ before)
    (notSeparator : next ≠ separator) :
    ¬key ++ quote :: separator :: last <+: text ++ quote :: next :: rest := by
  rintro ⟨more, whole⟩
  have plain : ∀ symbol ∈ key, (decide (symbol ≠ quote)) = true := by
    intro symbol mem
    simpa using fun same : symbol = quote => plainKey (same ▸ mem)
  have upToQuote := congrArg (takeWhile fun symbol => decide (symbol ≠ quote)) whole
  rw [append_assoc, takeWhile_append_of_pos plain] at upToQuote
  by_cases quoted : quote ∈ text
  · rcases eq_append_cons_of_mem quoted with ⟨before, after, rfl, absent⟩
    have plainBefore : ∀ symbol ∈ before, (decide (symbol ≠ quote)) = true := by
      intro symbol mem
      simpa using fun same : symbol = quote => absent (same ▸ mem)
    rw [append_assoc, takeWhile_append_of_pos plainBefore] at upToQuote
    simp only [cons_append, ne_eq, not_true_eq_false, decide_false, Bool.false_eq_true,
      not_false_eq_true, takeWhile_cons_of_neg, append_nil] at upToQuote
    rw [upToQuote] at noEscape
    exact noEscape (escaped before after rfl)
  · have plainText : ∀ symbol ∈ text, (decide (symbol ≠ quote)) = true := by
      intro symbol mem
      simpa using fun same : symbol = quote => quoted (same ▸ mem)
    rw [takeWhile_append_of_pos plainText] at upToQuote
    simp only [cons_append, ne_eq, not_true_eq_false, decide_false, Bool.false_eq_true,
      not_false_eq_true, takeWhile_cons_of_neg, append_nil] at upToQuote
    rw [upToQuote, append_assoc, append_cancel_left_eq] at whole
    simp only [cons_append, List.cons.injEq, true_and] at whole
    exact notSeparator whole.1.symm

theorem passes_inside (nonempty : key ≠ []) (plainKey : quote ∉ key) (noEscape : escape ∉ key)
    (different : quote ≠ escape) (escaped : Escaped quote escape text)
    (notSeparator : next ≠ separator) (notKey : next ∉ key) :
    Passes (keyPattern quote separator key last) (text ++ [quote]) (next :: rest) := by
  intro offset inside stands
  simp only [length_append, length_singleton] at inside
  rw [append_assoc, singleton_append] at stands
  rcases Nat.lt_or_ge offset text.length with early | late
  · rw [drop_append_of_le_length (by omega), drop_eq_getElem_cons early] at stands
    rcases List.cons_prefix_cons.mp stands with ⟨here, later⟩
    have split : text = text.take offset ++ quote :: text.drop (offset + 1) := by
      rw [here, getElem_cons_drop, take_append_drop]
    refine not_key_prefix plainKey noEscape ?_ notSeparator later
    intro before after inner
    rw [inner] at split
    rcases escaped (text.take offset ++ quote :: before) after (by simpa using split) with
      ⟨front, ending⟩
    rcases eq_nil_or_concat before with rfl | ⟨initial, symbol, rfl⟩
    · have same : quote = escape := by simpa using congrArg getLast? ending
      exact absurd same different
    · have reversed := congrArg reverse ending
      simp only [concat_eq_append, reverse_append, reverse_cons, reverse_nil,
        nil_append, cons_append, List.cons.injEq] at reversed
      simp [reversed.1]
  · have atEnd : offset = text.length := by omega
    rw [atEnd, drop_left] at stands
    rcases List.cons_prefix_cons.mp stands with ⟨-, later⟩
    rcases key with _ | ⟨first, key⟩
    · exact nonempty rfl
    · rcases List.cons_prefix_cons.mp later with ⟨same, -⟩
      simp [same] at notKey

theorem passes_quoted (nonempty : key ≠ []) (plainKey : quote ∉ key) (noEscape : escape ∉ key)
    (different : quote ≠ escape) (escaped : Escaped quote escape text)
    (notSeparator : next ≠ separator) (notKey : next ∉ key) :
    Passes (keyPattern quote separator key last) (quote :: (text ++ [quote])) (next :: rest) := by
  rw [← singleton_append]
  apply passes_append
  · intro offset inside stands
    have zero : offset = 0 := by simpa using inside
    rw [zero, append_assoc] at stands
    rcases List.cons_prefix_cons.mp stands with ⟨-, later⟩
    refine not_key_prefix plainKey noEscape ?_ notSeparator later
    intro before after inner
    rcases escaped before after inner with ⟨front, rfl⟩
    simp
  · exact passes_inside nonempty plainKey noEscape different escaped notSeparator notKey

end Quoted

end Search
