import Mathlib

/-!
# Texts of lines
-/

namespace Lines

open List

universe u

variable {α : Type u}

/-- The text that consists of these lines. -/
def text (newline : α) (lines : List (List α)) : List α := lines.flatMap (· ++ [newline])

variable {newline : α}

@[simp] theorem text_nil : text newline [] = [] := rfl

@[simp] theorem text_append (first second : List (List α)) :
    text newline (first ++ second) = text newline first ++ text newline second :=
  flatMap_append

@[simp] theorem text_singleton (line : List α) : text newline [line] = line ++ [newline] := by
  simp [text]

theorem text_cons (line : List α) (rest : List (List α)) :
    text newline (line :: rest) = line ++ newline :: text newline rest := by
  simp [text]

variable [DecidableEq α]

/-- The lines of a text that have their newline. -/
def terminated (newline : α) (content : List α) : List (List α) :=
  (content.splitOn newline).dropLast

/-- What stands behind the last newline. -/
def tail (newline : α) (content : List α) : List α := (content.splitOn newline).getLastD []

/-- The lines and the tail that are not empty. -/
def pieces (newline : α) (content : List α) : List (List α) :=
  (content.splitOn newline).filter (· ≠ [])

/-- The lines with a newline that are not empty. -/
def filled (newline : α) (content : List α) : List (List α) :=
  (terminated newline content).filter (· ≠ [])

theorem splitOn_append_cons (before after : List α) :
    (before ++ newline :: after).splitOn newline =
      before.splitOn newline ++ after.splitOn newline :=
  splitOnP_append_cons before after (by simp)

variable {line more content : List α} {lines delivered : List (List α)}

theorem splitOn_of_not_mem (plain : newline ∉ line) :
    line.splitOn newline = [line] := by
  have plainAll : ∀ field ∈ [line], newline ∉ field := by
    simpa using plain
  simpa using splitOn_intercalate newline plainAll (by simp)

theorem splitOn_text_append (plain : ∀ line ∈ lines, newline ∉ line) (rest : List α) :
    (text newline lines ++ rest).splitOn newline = lines ++ rest.splitOn newline := by
  induction lines with
  | nil => simp
  | cons line lines ih =>
    rw [text_cons, append_assoc, cons_append, splitOn_append_cons,
      splitOn_of_not_mem (plain line (by simp)), ih]
    · simp
    · intro later mem
      exact plain later (by simp [mem])

theorem terminated_text (plain : ∀ line ∈ lines, newline ∉ line) :
    terminated newline (text newline lines) = lines := by
  have split := splitOn_text_append plain []
  rw [append_nil] at split
  simp [terminated, split]

theorem exists_text (newline : α) (content : List α) :
    ∃ lines rest, content = text newline lines ++ rest ∧ (∀ line ∈ lines, newline ∉ line) ∧
      newline ∉ rest := by
  induction content with
  | nil => exact ⟨[], [], rfl, by simp, by simp⟩
  | cons symbol content ih =>
    rcases ih with ⟨lines, rest, rfl, plain, restPlain⟩
    by_cases isNewline : symbol = newline
    · subst isNewline
      refine ⟨[] :: lines, rest, by simp [text_cons], ?_, restPlain⟩
      intro line mem
      rcases List.mem_cons.mp mem with rfl | later
      · simp
      · exact plain line later
    rcases lines with _ | ⟨line, lines⟩
    · exact ⟨[], symbol :: rest, rfl, by simp, by simp [Ne.symm isNewline, restPlain]⟩
    · refine ⟨(symbol :: line) :: lines, rest, by simp [text_cons], ?_, restPlain⟩
      intro other mem
      rcases List.mem_cons.mp mem with rfl | later
      · simp [Ne.symm isNewline, plain line (by simp)]
      · exact plain other (by simp [later])

theorem splitOn_append_of_not_mem (content : List α) (plain : newline ∉ more) :
    (content ++ more).splitOn newline =
      terminated newline content ++ [tail newline content ++ more] := by
  rcases exists_text newline content with ⟨lines, rest, rfl, linesPlain, restPlain⟩
  have morePlain : newline ∉ rest ++ more := by
    simp [restPlain, plain]
  have whole := splitOn_text_append linesPlain (rest ++ more)
  have before := splitOn_text_append linesPlain rest
  rw [splitOn_of_not_mem morePlain, ← append_assoc] at whole
  rw [splitOn_of_not_mem restPlain] at before
  rw [whole]
  simp [terminated, tail, before]

theorem splitOn_eq_append_tail (newline : α) (content : List α) :
    content.splitOn newline = terminated newline content ++ [tail newline content] := by
  have plain : newline ∉ ([] : List α) := by
    simp
  simpa using splitOn_append_of_not_mem content plain

theorem splitOn_append_newline (content : List α) (plain : newline ∉ line) (more : List α) :
    (content ++ (line ++ newline :: more)).splitOn newline =
      terminated newline content ++ (tail newline content ++ line) :: more.splitOn newline := by
  rw [← append_assoc, splitOn_append_cons, splitOn_append_of_not_mem content plain]
  simp

theorem terminated_append_of_not_mem (content : List α) (plain : newline ∉ more) :
    terminated newline (content ++ more) = terminated newline content := by
  rw [terminated, splitOn_append_of_not_mem content plain, dropLast_concat]

theorem tail_append_of_not_mem (content : List α) (plain : newline ∉ more) :
    tail newline (content ++ more) = tail newline content ++ more := by
  rw [tail, splitOn_append_of_not_mem content plain, getLastD_concat]

theorem terminated_append_newline (content : List α) (plain : newline ∉ line) (more : List α) :
    terminated newline (content ++ (line ++ newline :: more)) =
      terminated newline content ++ (tail newline content ++ line) :: terminated newline more := by
  rw [terminated, splitOn_append_newline content plain, splitOn_eq_append_tail newline more,
    ← cons_append, ← append_assoc, dropLast_concat]

theorem tail_append_newline (content : List α) (plain : newline ∉ line) (more : List α) :
    tail newline (content ++ (line ++ newline :: more)) = tail newline more := by
  rw [tail, splitOn_append_newline content plain, splitOn_eq_append_tail newline more,
    ← cons_append, ← append_assoc, getLastD_concat]

theorem pieces_append_cons (before after : List α) :
    pieces newline (before ++ newline :: after) = pieces newline before ++ pieces newline after := by
  rw [pieces, splitOn_append_cons, filter_append]
  rfl

theorem pieces_of_not_mem (plain : newline ∉ line) :
    pieces newline line = [line].filter (· ≠ []) := by
  rw [pieces, splitOn_of_not_mem plain]

theorem pieces_eq_append (newline : α) (content : List α) :
    pieces newline content =
      filled newline content ++ [tail newline content].filter (· ≠ []) := by
  rw [pieces, splitOn_eq_append_tail, filter_append]
  rfl

theorem filled_append_of_not_mem (content : List α) (plain : newline ∉ more) :
    filled newline (content ++ more) = filled newline content := by
  rw [filled, terminated_append_of_not_mem content plain]
  rfl

theorem filled_append_newline (content : List α) (plain : newline ∉ line) (more : List α) :
    filled newline (content ++ (line ++ newline :: more)) =
      filled newline content ++ ([tail newline content ++ line].filter (· ≠ []) ++
        filled newline more) := by
  rw [filled, terminated_append_newline content plain, filter_append,
    ← singleton_append, filter_append]
  rfl

/-- A text has been read as its lines, and possibly its tail. -/
def Delivered (newline : α) (content : List α) (delivered : List (List α)) : Prop :=
  delivered = filled newline content ∨
    delivered = filled newline content ++ [tail newline content]

theorem delivered_append_of_tail_nil (new : more ≠ []) (tailEmpty : tail newline content = []) :
    Delivered newline (content ++ more) (filled newline content ++ pieces newline more) := by
  by_cases hasNewline : newline ∈ more
  · rcases eq_append_cons_of_mem hasNewline with ⟨line, rest, rfl, plain⟩
    rw [Delivered, filled_append_newline content plain, tail_append_newline content plain,
      pieces_append_cons, pieces_of_not_mem plain, pieces_eq_append, tailEmpty]
    by_cases restEmpty : tail newline rest = []
    · left
      simp [restEmpty]
    · right
      simp [restEmpty]
  · right
    rw [filled_append_of_not_mem content hasNewline, tail_append_of_not_mem content hasNewline,
      pieces_of_not_mem hasNewline, tailEmpty]
    simp [new]

theorem not_delivered_append (read : Delivered newline content delivered)
    (tailFilled : tail newline content ≠ []) (new : more ≠ []) (goesOn : more.head? ≠ some newline) :
    ¬Delivered newline (content ++ more) (delivered ++ pieces newline more) := by
  by_cases hasNewline : newline ∈ more
  · rcases eq_append_cons_of_mem hasNewline with ⟨line, rest, rfl, plain⟩
    have lineFilled : line ≠ [] := by
      rintro rfl
      exact goesOn rfl
    rw [Delivered, filled_append_newline content plain, pieces_append_cons, pieces_of_not_mem plain]
    rcases read with rfl | rfl <;> simp [tailFilled, lineFilled]
  · rw [Delivered, filled_append_of_not_mem content hasNewline,
      tail_append_of_not_mem content hasNewline, pieces_of_not_mem hasNewline]
    rcases read with rfl | rfl <;> simp [tailFilled, new]

theorem delivered_append_newline_iff {rest : List α} (read : Delivered newline content delivered)
    (tailFilled : tail newline content ≠ []) :
    Delivered newline (content ++ newline :: rest) (delivered ++ pieces newline (newline :: rest)) ↔
      delivered = filled newline content ++ [tail newline content] ∨
        pieces newline (newline :: rest) =
          tail newline content :: filled newline (newline :: rest) := by
  have plain : newline ∉ ([] : List α) := by
    simp
  have own : filled newline (newline :: rest) = filled newline rest :=
    filled_append_newline [] plain rest
  have pieces : pieces newline (newline :: rest) =
      filled newline rest ++ [tail newline rest].filter (· ≠ []) := by
    rw [← pieces_eq_append]
    exact pieces_append_cons [] rest
  have whole := filled_append_newline content plain rest
  have wholeTail := tail_append_newline content plain rest
  rw [nil_append] at whole wholeTail
  rw [Delivered, whole, wholeTail, pieces, own]
  by_cases restEmpty : tail newline rest = []
  · have longer : filled newline rest ≠ tail newline content :: (filled newline rest ++ [[]]) := by
      intro same
      have lengths := congrArg length same
      simp only [length_cons, length_append] at lengths
      omega
    rcases read with rfl | rfl <;> simp [tailFilled, restEmpty, longer]
  · have longer : filled newline rest ++ [tail newline rest] ≠
        tail newline content :: (filled newline rest ++ [tail newline rest]) := by
      intro same
      simpa using congrArg length same
    rcases read with rfl | rfl <;> simp [tailFilled, restEmpty]

theorem delivered_append_pieces_iff (nonempty : [] ∉ delivered)
    (read : Delivered newline content delivered) (new : more ≠ []) :
    Delivered newline (content ++ more) (delivered ++ pieces newline more) ↔
      tail newline content = [] ∨ more.head? = some newline ∧
        (delivered = filled newline content ++ [tail newline content] ∨
          pieces newline more = tail newline content :: filled newline more) := by
  by_cases tailEmpty : tail newline content = []
  · have all : delivered = filled newline content := by
      rcases read with lines | torn
      · exact lines
      · exact absurd (by simp [torn, tailEmpty]) nonempty
    subst all
    exact iff_of_true (delivered_append_of_tail_nil new tailEmpty) (Or.inl tailEmpty)
  by_cases newlineFirst : more.head? = some newline
  · rcases head?_eq_some_iff.mp newlineFirst with ⟨rest, rfl⟩
    rw [delivered_append_newline_iff read tailEmpty]
    simp [tailEmpty]
  · apply iff_of_false (not_delivered_append read tailEmpty new newlineFirst)
    simp [tailEmpty, newlineFirst]

theorem eq_of_append_cons_eq {before before' after after' : List α} (plain : newline ∉ after)
    (plain' : newline ∉ after')
    (same : before ++ newline :: after = before' ++ newline :: after') : after = after' := by
  have splits := congrArg (splitOn newline) same
  rw [splitOn_append_cons, splitOn_append_cons, splitOn_of_not_mem plain,
    splitOn_of_not_mem plain'] at splits
  exact (List.append_singleton_inj.mp splits).2

end Lines
