import LogGuardian.Fleet.Overlay

/-!
# Pairs that are stored

`upsert_overlay_line` writes the old lines back up to their `=`, and the new pair behind them.
Whether the file has the pair afterwards is said here on the lines that it had before.
-/

namespace LogGuardian

open List

/-- The lines of a file that are kept in the array. -/
def keptLines (file : Option Bytes) : List Bytes :=
  (fgetsLines 512 (file.getD [])).filter (!skipsLine ·)

/-- What is written back of a line. -/
def keptLine (line : Bytes) : Bytes := if chr '=' ∈ line then cutLine line else line

/-- The line that is still open at the end of a text that is read into `size` bytes. -/
def openLine (size : ℕ) : Bytes → Bytes → Bytes
  | [], line => line
  | byte :: rest, line =>
    if byte = chr '\n' ∨ line.length + 2 = size then openLine size rest []
    else openLine size rest (line ++ [byte])

/-- What stands in front of the pair in its line. -/
def openFront (file : Option Bytes) : Bytes :=
  openLine 512 ((keptLines file).map keptLine).flatten []

/-- The pair is read back from a line that has only blanks `front` in front of it. -/
structure PairLine (front key val : Bytes) : Prop where
  alone : ∀ byte ∈ front, isBlank byte = true
  noComment : key.head? ≠ some (chr '#')
  plain : ∀ byte ∈ key ++ val, byte ≠ chr '\n' ∧ byte ≠ 0
  fits : front.length + key.length ≤ 510
  whole : (val.take (510 - front.length - key.length)).dropWhile isBlank = val.dropWhile isBlank

/-- The key is new, the array has room for it, and the pair has a line of its own. -/
structure StoresPair (key val : Bytes) (file : Option Bytes) : Prop where
  new : ∀ line ∈ keptLines file, chr '=' ∈ line → overlayKey line ≠ key
  room : (keptLines file).length < 64
  line : PairLine (openFront file) key val

variable {size : ℕ} {front key val line content : Bytes}

theorem equalsSigns_keptLine (line : Bytes) : equalsSigns (keptLine line) = 0 := by
  unfold keptLine
  split_ifs with sign
  · exact equalsSigns_cutLine line
  · exact equalsSigns_eq_zero.mpr sign

theorem upsertLines_eq (key val : Bytes) (room : ℕ) (lines : List Bytes) :
    ((∀ line ∈ lines.filter (!skipsLine ·), chr '=' ∈ line → overlayKey line ≠ key) ∧
        (lines.filter (!skipsLine ·)).length < room →
      upsertLines key val room lines =
        (lines.filter (!skipsLine ·)).map keptLine ++ [overlayLine key val]) ∧
    (¬((∀ line ∈ lines.filter (!skipsLine ·), chr '=' ∈ line → overlayKey line ≠ key) ∧
        (lines.filter (!skipsLine ·)).length < room) →
      equalsSigns (upsertLines key val room lines).flatten = 0) := by
  induction lines generalizing room with
  | nil => cases room <;> simp [upsertLines, equalsSigns]
  | cons line rest ih =>
    rcases room with _ | room
    · simp [upsertLines, equalsSigns]
    rcases skipped : skipsLine line with _ | _
    · rw [filter_cons_of_pos (by simp [skipped]), forall_mem_cons, length_cons, map_cons, upsertLines,
        if_neg (by simp [skipped])]
      have later := ih room
      by_cases sign : chr '=' ∈ line
      · rw [if_pos sign]
        by_cases same : overlayKey line = key
        · simp [sign, same, equalsSigns]
        · rw [if_neg same, flatten_cons, equalsSigns_append, equalsSigns_cutLine, Nat.zero_add]
          simpa [sign, same, keptLine] using later
      · rw [if_neg sign, flatten_cons, equalsSigns_append, equalsSigns_eq_zero.mpr sign, Nat.zero_add]
        simpa [sign, keptLine] using later
    · rw [filter_cons_of_neg (by simp [skipped]), upsertLines, if_pos skipped]
      exact ih (room + 1)

theorem flatten_fgetsFrom (size : ℕ) (content line : Bytes) :
    (fgetsFrom size content line).flatten = line ++ content := by
  induction content generalizing line with
  | nil =>
    unfold fgetsFrom
    split_ifs with empty
    · simp [empty]
    · simp
  | cons byte rest ih =>
    unfold fgetsFrom
    split_ifs <;> simp [ih]

theorem fgetsFrom_append (size : ℕ) (content line rest : Bytes) :
    ∃ done, fgetsFrom size (content ++ rest) line =
        done ++ fgetsFrom size rest (openLine size content line) ∧
      done.flatten ++ openLine size content line = line ++ content := by
  induction content generalizing line with
  | nil => exact ⟨[], rfl, by simp [openLine]⟩
  | cons byte content ih =>
    rw [cons_append, fgetsFrom, openLine]
    split_ifs with full
    · rcases ih [] with ⟨done, lines, all⟩
      exact ⟨(line ++ [byte]) :: done, by rw [lines]; rfl, by simp [all]⟩
    · rcases ih (line ++ [byte]) with ⟨done, lines, all⟩
      exact ⟨done, lines, by simp [all]⟩

theorem openLine_append (size : ℕ) (content rest line : Bytes) :
    openLine size (content ++ rest) line = openLine size rest (openLine size content line) := by
  induction content generalizing line with
  | nil => rfl
  | cons byte content ih =>
    rw [cons_append, openLine, openLine]
    split_ifs
    · exact ih []
    · exact ih (line ++ [byte])

theorem length_openLine (short : line.length + 2 ≤ size) (content : Bytes) :
    (openLine size content line).length + 2 ≤ size := by
  induction content generalizing line with
  | nil => exact short
  | cons byte content ih =>
    rw [openLine]
    split_ifs with full
    · exact ih (by simp; omega)
    · rw [not_or] at full
      exact ih (by rw [length_append, length_singleton]; omega)

/-- The line that is read first, and what ends it. -/
theorem fgetsFrom_first (nonempty : content ≠ []) (short : line.length + 2 ≤ size) :
    ∃ front back, content = front ++ back ∧ front ≠ [] ∧
      fgetsFrom size content line = (line ++ front) :: fgetsFrom size back [] ∧
      chr '\n' ∉ front.dropLast ∧ line.length + front.length + 1 ≤ size ∧
      (back = [] ∨ front.getLast? = some (chr '\n') ∨ line.length + front.length + 1 = size) := by
  induction content generalizing line with
  | nil => exact absurd rfl nonempty
  | cons byte rest ih =>
    rw [fgetsFrom]
    split_ifs with full
    · refine ⟨[byte], rest, rfl, cons_ne_nil _ _, rfl, not_mem_nil, short, Or.inr ?_⟩
      rcases full with feed | full
      · exact Or.inl (by rw [feed]; rfl)
      · exact Or.inr full
    · rw [not_or] at full
      rcases rest with _ | ⟨next, rest⟩
      · exact ⟨[byte], [], rfl, cons_ne_nil _ _, by simp [fgetsFrom], not_mem_nil, short, Or.inl rfl⟩
      · have held : (line ++ [byte]).length + 2 ≤ size := by
          rw [length_append, length_singleton]
          omega
        rcases ih (cons_ne_nil _ _) held with ⟨front, back, split, some, lines, feed, fits, ends⟩
        rcases front with _ | ⟨first, front⟩
        · exact absurd rfl some
        rw [length_append, length_singleton] at fits ends
        refine ⟨byte :: first :: front, back, by rw [split]; rfl, cons_ne_nil _ _,
          by rw [lines]; simp, ?_, by rw [length_cons]; omega, ?_⟩
        · rw [dropLast_cons_cons, mem_cons, not_or]
          exact ⟨fun same => full.1 same.symm, feed⟩
        · rw [getLast?_cons_cons, length_cons]
          rcases ends with last | ends | ends
          · exact Or.inl last
          · exact Or.inr (Or.inl ends)
          · exact Or.inr (Or.inr (by omega))

theorem trimRight_append (front back : Bytes) : trimRight isBlank (front ++ back) =
    if trimRight isBlank back = [] then trimRight isBlank front
    else front ++ trimRight isBlank back := by
  unfold trimRight
  rw [reverse_append, dropWhile_append]
  by_cases empty : back.reverse.dropWhile isBlank = []
  · simp [empty]
  · rw [if_neg (by simpa using empty), if_neg (by simpa using empty), reverse_append, reverse_reverse]

theorem trimRight_ne_nil (nonempty : key ≠ []) (trimmed : key.dropWhile isBlank = key) :
    trimRight isBlank key ≠ [] := by
  intro empty
  rw [trimRight, reverse_eq_nil_iff, dropWhile_eq_nil_iff] at empty
  have blank : key.dropWhile isBlank = [] :=
    dropWhile_eq_nil_iff.mpr fun byte mem => empty byte (mem_reverse.mpr mem)
  exact nonempty (trimmed.symm.trans blank)

theorem overlayKey_eq (plain : chr '=' ∉ front) (rest : Bytes) :
    overlayKey (front ++ chr '=' :: rest) = trimRight isBlank (front.dropWhile isBlank) := by
  have before : ∀ byte ∈ front.dropWhile isBlank, decide (byte ≠ chr '=') = true := by
    intro byte mem
    have : byte ≠ chr '=' := fun same => plain (same ▸ (dropWhile_sublist _).mem mem)
    simpa using this
  have sign : isBlank (chr '=') = false := by decide
  rw [overlayKey, dropWhile_append]
  split
  · rename_i empty
    rw [List.isEmpty_iff] at empty
    rw [dropWhile_cons_of_neg (by simp [sign]), takeWhile_cons_of_neg (by simp), empty]
  · rw [takeWhile_append_of_pos before, takeWhile_cons_of_neg (by simp), append_nil]

/-- No part of a key is taken for the key. -/
theorem trimRight_dropWhile_ne (nonempty : front ≠ []) (back : Bytes)
    (trimmed : (front ++ back).dropWhile isBlank = front ++ back) :
    trimRight isBlank (back.dropWhile isBlank) ≠ trimRight isBlank (front ++ back) := by
  intro same
  have some := trimRight_ne_nil (by simp [nonempty]) trimmed
  have whole := trimRight_append (back.takeWhile isBlank) (back.dropWhile isBlank)
  rw [takeWhile_append_dropWhile, same, if_neg some] at whole
  have longer := trimRight_append front back
  rw [if_neg (by rw [whole]; simp [some])] at longer
  have lengths := congrArg length longer
  have part := congrArg length whole
  have positive := length_pos_iff.mpr nonempty
  rw [length_append] at lengths part
  omega

theorem blank_of_trimRight (nonempty : key ≠ []) (trimmed : key.dropWhile isBlank = key)
    (same : trimRight isBlank ((front ++ key).dropWhile isBlank) = trimRight isBlank key) :
    ∀ byte ∈ front, isBlank byte = true := by
  rw [← dropWhile_eq_nil_iff]
  by_contra some
  have longer : (front ++ key).dropWhile isBlank = front.dropWhile isBlank ++ key := by
    rw [dropWhile_append, if_neg (by simpa using some)]
  rw [longer, trimRight_append, if_neg (trimRight_ne_nil nonempty trimmed)] at same
  exact some (append_left_eq_self.mp same)

theorem dropWhile_sign (plain : chr '=' ∉ front) (rest : Bytes) :
    (front ++ chr '=' :: rest).dropWhile (· ≠ chr '=') = chr '=' :: rest ∧
      (front ++ chr '=' :: rest).takeWhile (· ≠ chr '=') = front := by
  have before : ∀ byte ∈ front, decide (byte ≠ chr '=') = true := by
    intro byte mem
    have : byte ≠ chr '=' := fun same => plain (same ▸ mem)
    simpa using this
  rw [dropWhile_append_of_pos before, takeWhile_append_of_pos before, dropWhile_cons_of_neg (by simp),
    takeWhile_cons_of_neg (by simp), append_nil]
  exact ⟨rfl, rfl⟩

section Pair

variable (noSign : chr '=' ∉ key) (trimmed : key.dropWhile isBlank = key) (nonempty : key ≠ [])

include noSign trimmed nonempty in
theorem overlayEntry_behind_blanks (alone : ∀ byte ∈ front, isBlank byte = true)
    (noComment : key.head? ≠ some (chr '#')) (noFeed : chr '\n' ∉ key) (rest : Bytes) :
    overlayEntry (front ++ key ++ chr '=' :: rest) =
      some (trimRight isBlank key, rest.dropWhile isBlank) := by
  have noSignFront : chr '=' ∉ front ++ key := by
    rw [mem_append, not_or]
    exact ⟨fun mem => absurd (alone _ mem) (by decide), noSign⟩
  have start : (front ++ key).dropWhile isBlank = key := by
    rw [dropWhile_append_of_pos alone, trimmed]
  have unskipped : skipsLine (front ++ key ++ chr '=' :: rest) = false := by
    rcases key with _ | ⟨first, key⟩
    · exact absurd rfl nonempty
    rw [mem_cons, not_or] at noFeed
    rw [skipsLine, dropWhile_append, start]
    simp only [isEmpty_cons, Bool.false_eq_true, if_false, cons_append, head?_cons,
      Option.some.injEq, Bool.or_eq_false_iff, decide_eq_false_iff_not]
    exact ⟨fun same => noComment (by rw [same]; rfl), fun same => noFeed.1 same.symm⟩
  rw [overlayEntry, if_neg (by rw [unskipped]; simp), overlayKey_eq noSignFront, start,
    (dropWhile_sign noSignFront rest).1]
  rfl

theorem cleanEntry_cut (noFeed : chr '\n' ∉ val) (text : Bytes) (length : ℕ) :
    cleanEntry (text, ((val ++ [chr '\n']).take length).dropWhile isBlank) =
      (text, (val.take length).dropWhile isBlank) := by
  by_cases cut : length ≤ val.length
  · have noLast : ((val.take length).dropWhile isBlank).getLast? ≠ some (chr '\n') := by
      intro last
      exact noFeed ((take_sublist _ _).mem ((dropWhile_sublist _).mem (mem_of_getLast? last)))
    rw [take_append_of_le_length cut, cleanEntry, if_neg noLast]
  · have feed : isBlank (chr '\n') = false := by decide
    have split : (val ++ [chr '\n']).dropWhile isBlank = val.dropWhile isBlank ++ [chr '\n'] := by
      rw [dropWhile_append]
      split
      · rename_i empty
        simp [List.isEmpty_iff.mp empty, feed]
      · rfl
    rw [take_of_length_le (by rw [length_append, length_singleton]; omega),
      take_of_length_le (by omega), split]
    simp [cleanEntry]

/-- The first line behind an open one has as much of the pair as fits. -/
theorem first_of_pair (noFeed : chr '\n' ∉ key ++ val) {back rest : Bytes}
    (split : overlayLine key val = rest ++ back) (fits : front.length + rest.length + 1 ≤ 512)
    (ends : back = [] ∨ rest.getLast? = some (chr '\n') ∨ front.length + rest.length + 1 = 512) :
    rest = (key ++ chr '=' :: val ++ [chr '\n']).take (511 - front.length) := by
  have part : overlayLine key val = (key ++ chr '=' :: val ++ [chr '\n']).take 511 := rfl
  rw [part] at split
  have start : rest = (key ++ chr '=' :: val ++ [chr '\n']).take rest.length := by
    have cut := congrArg (take rest.length) split
    rw [take_left, take_take, Nat.min_eq_left (by omega)] at cut
    exact cut.symm
  rcases ends with rfl | last | full
  · rw [append_nil] at split
    have cut := congrArg (take (511 - front.length)) split
    rw [take_take, Nat.min_eq_left (by omega), take_of_length_le (l := rest) (by omega)] at cut
    exact cut.symm
  · -- A line feed is read only at the end of the pair.
    have all : (key ++ chr '=' :: val ++ [chr '\n']).length ≤ rest.length := by
      by_contra short
      have mem := mem_of_getLast? last
      rw [start, take_append_of_le_length (by simp at short ⊢; omega)] at mem
      rcases List.mem_append.mp ((take_sublist _ _).mem mem) with inKey | inVal
      · exact noFeed (mem_append_left _ inKey)
      · rcases List.mem_cons.mp inVal with sign | inVal
        · exact absurd sign (by decide)
        · exact noFeed (mem_append_right _ inVal)
    rw [take_of_length_le all] at start
    rw [take_of_length_le (by omega)]
    exact start
  · rw [show 511 - front.length = rest.length by omega]
    exact start

include noSign trimmed nonempty in
theorem entry_of_first (alone : ∀ byte ∈ front, isBlank byte = true)
    (noComment : key.head? ≠ some (chr '#'))
    (plain : ∀ byte ∈ key ++ val, byte ≠ chr '\n' ∧ byte ≠ 0)
    (fits : front.length + key.length ≤ 510) :
    (overlayEntry ((front ++ (key ++ chr '=' :: val ++ [chr '\n']).take
        (511 - front.length)).takeWhile (· ≠ 0))).map cleanEntry =
      some (trimRight isBlank key,
        (val.take (510 - front.length - key.length)).dropWhile isBlank) := by
  have noFeed : chr '\n' ∉ key ++ val := fun mem => (plain _ mem).1 rfl
  rw [mem_append, not_or] at noFeed
  have cut : (key ++ chr '=' :: val ++ [chr '\n']).take (511 - front.length) =
      key ++ chr '=' :: (val ++ [chr '\n']).take (510 - front.length - key.length) := by
    rw [append_assoc, cons_append, take_append, take_of_length_le (by omega),
      show 511 - front.length - key.length = 510 - front.length - key.length + 1 by omega,
      take_succ_cons]
  have nonzero : ∀ byte ∈ front ++ key ++ chr '=' ::
      (val ++ [chr '\n']).take (510 - front.length - key.length), decide (byte ≠ 0) = true := by
    intro byte mem
    have cases : byte ∈ front ∨ byte ∈ key ++ val ∨ byte = chr '=' ∨ byte = chr '\n' := by
      simp only [mem_append, mem_cons] at mem ⊢
      rcases mem with (inFront | inKey) | sign | inVal
      · exact Or.inl inFront
      · exact Or.inr (Or.inl (Or.inl inKey))
      · exact Or.inr (Or.inr (Or.inl sign))
      · have whole := (take_sublist _ _).mem inVal
        simp only [mem_append, mem_singleton] at whole
        tauto
    rcases cases with inFront | inPair | rfl | rfl
    · have : byte ≠ 0 := by
        rintro rfl
        exact absurd (alone 0 inFront) (by decide)
      simpa using this
    · simpa using (plain byte inPair).2
    · decide
    · decide
  rw [cut, ← append_assoc, List.takeWhile_eq_self_iff.mpr nonzero,
    overlayEntry_behind_blanks noSign trimmed nonempty alone noComment noFeed.1, Option.map_some,
    cleanEntry_cut noFeed.2]

include noSign in
/-- A line that is read back as the pair has all of its `=`, so that none is left for the others. -/
theorem before_of_entry {before after : Bytes} {entry : Bytes × Bytes}
    (split : overlayLine key val = before ++ line ++ after)
    (read : overlayEntry (line.takeWhile (· ≠ 0)) = some entry)
    (same : cleanEntry entry = (trimRight isBlank key, val.dropWhile isBlank)) :
    chr '=' ∉ before := by
  have signs := equalsSigns_of_overlayEntry read
  rw [← equalsSigns_cleanEntry, same, equalsSigns_dropWhile_isBlank] at signs
  have part : equalsSigns (line.takeWhile (· ≠ 0)) ≤ equalsSigns line :=
    (takeWhile_sublist _).count_le _
  have total := equalsSigns_overlayLine_le noSign val
  rw [split, equalsSigns_append, equalsSigns_append] at total
  rw [← equalsSigns_eq_zero]
  omega

/-- The bytes of a value that was read back, without the line feed at its end. -/
theorem mem_cleanEntry {entry : Bytes × Bytes} {byte : UInt8} (noFeed : chr '\n' ∉ entry.2.dropLast)
    (mem : byte ∈ (cleanEntry entry).2) : byte ∈ entry.2 ∧ byte ≠ chr '\n' := by
  unfold cleanEntry at mem
  split at mem
  · exact ⟨(dropLast_sublist _).mem mem, fun same => noFeed (same ▸ mem)⟩
  · rename_i other
    refine ⟨mem, ?_⟩
    rintro rfl
    rcases eq_nil_or_concat' entry.2 with empty | ⟨init, last, split⟩
    · rw [empty] at mem
      cases mem
    · rw [split, getLast?_concat, Option.some.injEq] at other
      rw [split, dropLast_concat] at noFeed
      rw [split, mem_append, mem_singleton] at mem
      exact mem.elim noFeed fun same => other same.symm

include noSign trimmed nonempty in
/-- A first line that is read back as the pair has blanks in front of it, and the pair is plain. -/
theorem plain_of_first (noSignFront : chr '=' ∉ front) {rest back tail : Bytes}
    (isPair : key ++ chr '=' :: tail = rest ++ back)
    (noFeed : chr '\n' ∉ rest.dropLast) {entry : Bytes × Bytes}
    (read : overlayEntry ((front ++ rest).takeWhile (· ≠ 0)) = some entry)
    (same : cleanEntry entry = (trimRight isBlank key, val.dropWhile isBlank)) :
    (∀ byte ∈ front, isBlank byte = true) ∧ key.head? ≠ some (chr '#') ∧
      (∀ byte ∈ key ++ val, byte ≠ chr '\n' ∧ byte ≠ 0) ∧ key.length + 1 ≤ rest.length := by
  have unskipped : skipsLine ((front ++ rest).takeWhile (· ≠ 0)) = false ∧
      chr '=' ∈ (front ++ rest).takeWhile (· ≠ 0) := by
    unfold overlayEntry at read
    split_ifs at read with skipped
    rw [not_or, not_not] at skipped
    exact ⟨Bool.eq_false_iff.mpr skipped.1, skipped.2⟩
  rcases eq_append_cons_of_mem unskipped.2 with ⟨before, value, isLine, noSignBefore⟩
  rcases takeWhile_prefix (l := front ++ rest) (· ≠ (0 : UInt8)) with ⟨more, isWhole⟩
  rw [isLine, append_assoc, cons_append] at isWhole
  have isBefore : before = front ++ key := by
    have cut := (dropWhile_sign noSignBefore (value ++ more ++ back)).2
    have noSignAll : chr '=' ∉ front ++ key := by simp [noSignFront, noSign]
    have regroup : before ++ chr '=' :: (value ++ more ++ back) =
        front ++ key ++ chr '=' :: tail := by
      rw [append_assoc front, isPair, ← append_assoc, ← isWhole]
      simp
    rw [regroup, (dropWhile_sign noSignAll tail).2] at cut
    exact cut.symm
  subst isBefore
  have isRest : rest = key ++ chr '=' :: (value ++ more) := by
    rw [append_assoc] at isWhole
    exact (append_cancel_left isWhole).symm
  have entryEq : entry = (trimRight isBlank ((front ++ key).dropWhile isBlank),
      value.dropWhile isBlank) := by
    have reads := not_or.mpr ⟨Bool.eq_false_iff.mp unskipped.1, not_not.mpr unskipped.2⟩
    rw [overlayEntry, if_neg reads, isLine, overlayKey_eq noSignBefore,
      (dropWhile_sign noSignBefore value).1] at read
    exact (Option.some.inj read).symm
  have keys : trimRight isBlank ((front ++ key).dropWhile isBlank) = trimRight isBlank key := by
    have first := congrArg Prod.fst same
    rw [entryEq] at first
    exact first
  have alone := blank_of_trimRight nonempty trimmed keys
  have nonzero : ∀ byte ∈ front ++ key ++ chr '=' :: value, byte ≠ 0 := by
    intro byte mem
    rw [← isLine] at mem
    simpa using mem_takeWhile_imp mem
  have restInit : rest.dropLast = key ++ (chr '=' :: (value ++ more)).dropLast := by
    rw [isRest, dropLast_append_of_ne_nil (cons_ne_nil _ _)]
  have noFeedKey : chr '\n' ∉ key := fun mem => noFeed (by rw [restInit]; exact mem_append_left _ mem)
  refine ⟨alone, ?_, ?_, by rw [isRest]; simp⟩
  · intro comment
    rcases key with _ | ⟨first, key⟩
    · cases comment
    have skips : skipsLine ((front ++ rest).takeWhile (· ≠ 0)) = true := by
      rw [isLine, skipsLine, append_assoc, dropWhile_append_of_pos alone, dropWhile_append, trimmed]
      simp only [head?_cons, Option.some.injEq] at comment
      simp [comment]
    rw [unskipped.1] at skips
    cases skips
  · -- The value has no line feed inside it, and at its end there is none left.
    have noFeedEntry : chr '\n' ∉ entry.2.dropLast := by
      rw [entryEq]
      intro mem
      have inValue : chr '\n' ∈ value.dropLast := by
        rw [← takeWhile_append_dropWhile (p := isBlank) (l := value), dropLast_append_of_ne_nil]
        · exact mem_append_right _ mem
        · rintro empty
          simp [empty] at mem
      apply noFeed
      rw [restInit]
      apply mem_append_right
      have some : value ++ more ≠ [] := by
        rintro empty
        simp [(append_eq_nil_iff.mp empty).1] at inValue
      rw [dropLast_cons_of_ne_nil some]
      apply mem_cons_of_mem
      rcases more with _ | ⟨next, more⟩
      · simpa using inValue
      · rw [dropLast_append_of_ne_nil (cons_ne_nil _ _)]
        exact mem_append_left _ ((dropLast_sublist _).mem inValue)
    intro byte mem
    rcases List.mem_append.mp mem with inKey | inVal
    · exact ⟨fun feed => noFeedKey (feed ▸ inKey), nonzero byte (by simp [inKey])⟩
    · rw [← takeWhile_append_dropWhile (p := isBlank) (l := val), mem_append] at inVal
      rcases inVal with blank | solid
      · have isBlank := mem_takeWhile_imp blank
        constructor
        · rintro rfl
          exact absurd isBlank (by decide)
        · rintro rfl
          exact absurd isBlank (by decide)
      · have inEntry : byte ∈ (cleanEntry entry).2 := by
          rw [same]
          exact solid
        rcases mem_cleanEntry noFeedEntry inEntry with ⟨inside, other⟩
        rw [entryEq] at inside
        have inValue := (dropWhile_sublist _).mem inside
        exact ⟨other, nonzero byte (by simp [inValue])⟩

include noSign trimmed in
/-- A line that begins inside the key is not read back as the pair. -/
theorem not_later {tail before after : Bytes} {entry : Bytes × Bytes}
    (isPair : overlayLine key val = key ++ chr '=' :: tail)
    (around : overlayLine key val = before ++ line ++ after) (started : before ≠ [])
    (read : overlayEntry (line.takeWhile (· ≠ 0)) = some entry)
    (same : cleanEntry entry = (trimRight isBlank key, val.dropWhile isBlank)) : False := by
  have noSignBefore := before_of_entry noSign around read same
  have parts : chr '=' ∈ line.takeWhile (· ≠ 0) ∧
      overlayKey (line.takeWhile (· ≠ 0)) = trimRight isBlank key := by
    unfold overlayEntry at read
    split_ifs at read with skipped
    rw [not_or, not_not] at skipped
    rw [← Option.some.inj read] at same
    exact ⟨skipped.2, congrArg Prod.fst same⟩
  rcases parts with ⟨sign, keyRead⟩
  rcases eq_append_cons_of_mem sign with ⟨part, value, isLine, noSignLine⟩
  rcases takeWhile_prefix (l := line) (· ≠ (0 : UInt8)) with ⟨more, isWhole⟩
  rw [isLine] at isWhole
  have isKey : key = before ++ part := by
    have noSignAll : chr '=' ∉ before ++ part := by
      rw [mem_append, not_or]
      exact ⟨noSignBefore, noSignLine⟩
    have cut := (dropWhile_sign noSignAll (value ++ more ++ after)).2
    have regroup : before ++ part ++ chr '=' :: (value ++ more ++ after) = overlayLine key val := by
      rw [around, ← isWhole]
      simp
    rw [regroup, isPair, (dropWhile_sign noSign _).2] at cut
    exact cut
  rw [isLine, overlayKey_eq noSignLine] at keyRead
  rw [isKey] at keyRead trimmed
  exact trimRight_dropWhile_ne started part trimmed keyRead

include noSign trimmed nonempty in
theorem mem_entries_iff (short : key.length ≤ 127) (held : front.length + 2 ≤ 512)
    (noSignFront : chr '=' ∉ front) :
    (trimRight isBlank key, val.dropWhile isBlank) ∈
        (((fgetsFrom 512 (overlayLine key val) front).map fun line =>
          line.takeWhile (· ≠ 0)).filterMap overlayEntry).map cleanEntry ↔
      PairLine front key val := by
  have isPair : overlayLine key val =
      key ++ chr '=' :: (val ++ [chr '\n']).take (510 - key.length) := by
    change (key ++ chr '=' :: val ++ [chr '\n']).take 511 = _
    rw [append_assoc, cons_append, take_append, take_of_length_le (by omega),
      show 511 - key.length = 510 - key.length + 1 by omega, take_succ_cons]
  have written : overlayLine key val ≠ [] := by
    rw [isPair]
    simp
  rcases fgetsFrom_first written held with ⟨rest, back, split, begun, lines, noFeed, fits, ends⟩
  constructor
  · intro mem
    rcases List.mem_map.mp mem with ⟨entry, read, same⟩
    rcases List.mem_filterMap.mp read with ⟨text, inTexts, read⟩
    rcases List.mem_map.mp inTexts with ⟨line, inLines, rfl⟩
    rw [lines] at inLines
    rcases List.mem_cons.mp inLines with rfl | later
    · rw [isPair] at split
      rcases plain_of_first noSign trimmed nonempty noSignFront split noFeed read same with
        ⟨alone, noComment, plain, long⟩
      rw [← isPair] at split
      have inside : front.length + key.length ≤ 510 := by omega
      have first := entry_of_first noSign trimmed nonempty alone noComment plain inside
      rw [← first_of_pair (fun mem => (plain _ mem).1 rfl) split fits ends, read, Option.map_some,
        same, Option.some.injEq, Prod.mk.injEq] at first
      exact ⟨alone, noComment, plain, inside, first.2.symm⟩
    · -- A later line begins inside the key.
      exfalso
      rcases append_of_mem later with ⟨earlier, after, isBack⟩
      have whole := flatten_fgetsFrom 512 back []
      rw [isBack, flatten_append, flatten_cons, nil_append] at whole
      have around : overlayLine key val = (rest ++ earlier.flatten) ++ line ++ after.flatten := by
        rw [split, ← whole]
        simp
      have started := append_ne_nil_of_left_ne_nil begun earlier.flatten
      exact not_later noSign trimmed isPair around started read same
  · intro pair
    have first := entry_of_first noSign trimmed nonempty pair.alone pair.noComment pair.plain pair.fits
    rw [← first_of_pair (fun mem => (pair.plain _ mem).1 rfl) split fits ends, pair.whole] at first
    rcases Option.map_eq_some_iff.mp first with ⟨entry, read, same⟩
    rw [lines, map_cons, filterMap_cons, read, map_cons, same]
    exact mem_cons_self

theorem overlayLines_append {front : Bytes} (plain : chr '=' ∉ front) (back : Bytes) :
    overlayLines (some (front ++ back)) =
      ((fgetsFrom 512 back (openLine 512 front [])).map fun line =>
        line.takeWhile (· ≠ 0)).filterMap overlayEntry := by
  rcases fgetsFrom_append 512 front [] back with ⟨done, lines, all⟩
  have nothing : (done.map fun line => line.takeWhile (· ≠ 0)).filterMap overlayEntry = [] := by
    rw [filterMap_eq_nil_iff]
    intro line mem
    rcases List.mem_map.mp mem with ⟨whole, inDone, rfl⟩
    apply overlayEntry_eq_none
    rw [equalsSigns_eq_zero]
    intro sign
    apply plain
    rw [← nil_append front, ← all]
    exact mem_append_left _ (mem_flatten_of_mem inDone ((takeWhile_sublist _).mem sign))
  rw [overlayLines, Option.getD_some, fgetsLines, lines, map_append, filterMap_append, nothing,
    nil_append]

include noSign trimmed nonempty in
/-- The pair is in the file afterwards exactly if it is new, finds room and has a line of its own. -/
theorem mem_overlayMapping_iff (short : key.length ≤ 127) (file : Option Bytes) :
    (trimRight isBlank key, val.dropWhile isBlank) ∈
        overlayMapping (some (upsertOverlayLine key val file)) ↔
      StoresPair key val file := by
  rcases upsertLines_eq key val 64 (fgetsLines 512 (file.getD [])) with ⟨stored, lost⟩
  by_cases appended : (∀ line ∈ keptLines file, chr '=' ∈ line → overlayKey line ≠ key) ∧
      (keptLines file).length < 64
  · have signless : chr '=' ∉ overlayHeader ++ ((keptLines file).map keptLine).flatten := by
      rw [mem_append, not_or]
      refine ⟨by decide, fun mem => ?_⟩
      rcases mem_flatten.mp mem with ⟨text, inTexts, sign⟩
      rcases List.mem_map.mp inTexts with ⟨line, -, rfl⟩
      exact equalsSigns_eq_zero.mp (equalsSigns_keptLine line) sign
    have isFront : openLine 512 (overlayHeader ++ ((keptLines file).map keptLine).flatten) [] =
        openFront file := by
      rw [openLine_append, show openLine 512 overlayHeader [] = [] by decide]
      rfl
    have noSignFront : chr '=' ∉ openFront file := by
      rcases fgetsFrom_append 512 (overlayHeader ++ ((keptLines file).map keptLine).flatten) [] []
        with ⟨done, -, all⟩
      rw [isFront, nil_append] at all
      intro sign
      apply signless
      rw [← all]
      exact mem_append_right _ sign
    have text : upsertOverlayLine key val file =
        overlayHeader ++ ((keptLines file).map keptLine).flatten ++ overlayLine key val := by
      rw [upsertOverlayLine, stored appended, flatten_append, flatten_singleton, append_assoc]
      rfl
    have held : (openFront file).length + 2 ≤ 512 := length_openLine (by decide) _
    rw [text, overlayMapping, overlayLines_append signless, isFront,
      mem_entries_iff noSign trimmed nonempty short held noSignFront]
    exact ⟨fun pair => ⟨appended.1, appended.2, pair⟩, fun stores => stores.line⟩
  · have signless : equalsSigns (upsertOverlayLine key val file) = 0 := by
      rw [upsertOverlayLine, equalsSigns_append, equalsSigns_overlayHeader, lost appended]
    rw [overlayMapping, overlayLines_eq_nil signless]
    exact iff_of_false not_mem_nil fun stores => appended ⟨stores.new, stores.room⟩

end Pair

end LogGuardian
