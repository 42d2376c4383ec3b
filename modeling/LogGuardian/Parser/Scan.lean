import LogGuardian.Lib.Escape
import LogGuardian.Parser.Attribution

/-!
# The automaton on a rendered line

How the automaton moves over the parts of a line.
-/

namespace LogGuardian

open List

variable {line field rest : Bytes} {p : ℕ}

theorem drop_length (here : line.drop p = field ++ rest) : line.drop (p + field.length) = rest := by
  rw [← drop_drop, here, drop_left]

variable {byte : UInt8} {index : ℕ} {next : Dfa}

theorem drop_succ (here : line.drop p = byte :: rest) : line.drop (p + 1) = rest := by
  rw [← drop_drop, here, drop_one, tail_cons]

theorem lt_length_of_drop (here : line.drop p = byte :: rest) : p < line.length := by
  have lengths := congrArg length here
  rw [length_drop, length_cons] at lengths
  omega

theorem byteAt_of_drop (here : line.drop p = byte :: rest) : byteAt line p = byte := by
  have head := congrArg head? here
  rw [head?_drop, head?_cons] at head
  rw [byteAt, getD_eq_getElem?_getD, head, Option.getD_some]

theorem byteAt_add (here : line.drop p = field ++ rest) (inside : index < field.length) :
    byteAt line (p + index) = field[index] := by
  have split : line.drop p = field.take index ++ (field[index] :: (field.drop (index + 1) ++ rest)) := by
    rw [here, ← cons_append, getElem_cons_drop, ← append_assoc,
      take_append_drop]
  have later := drop_length split
  rw [length_take_of_le inside.le] at later
  exact byteAt_of_drop later

theorem bytes_of_drop (here : line.drop p = field ++ rest) :
    (StrView.line p field.length).bytes line = field := by
  rw [StrView.bytes, here, take_left]

theorem skipWhile_of_drop {skip : UInt8 → Bool} (here : line.drop p = field ++ rest)
    (skipped : ∀ byte ∈ field, skip byte) (stops : ∀ byte ∈ rest.head?, skip byte = false) :
    skipWhile skip line p = p + field.length := by
  have ended : rest.takeWhile skip = [] := by
    rcases rest with _ | ⟨byte, rest⟩
    · rfl
    · simp [stops byte rfl]
  rw [skipWhile, here, takeWhile_append_of_pos skipped, ended, append_nil]

theorem ne_of_isDigit {other : UInt8} (digit : isDigit byte = true)
    (otherwise : isDigit other = false) : byte ≠ other := by
  rintro rfl
  rw [digit] at otherwise
  exact Bool.noConfusion otherwise

/-- Turns of the loop lead from one state to the other. -/
abbrev Dfa.Reaches (line : Bytes) : Dfa → Dfa → Prop := Loop.Reaches (Dfa.Halted line) (dfaStep line)

variable {state : ParserState} {tokStart : ℕ} {out : LogEntry}

theorem running_of_le (early : state.rank < 17) (inside : p ≤ line.length) :
    ¬Dfa.Halted line ⟨state, p, tokStart, out⟩ := by
  rintro (past | done | error)
  · exact absurd past (by dsimp only; omega)
  · rw [show state = .done from done] at early
    exact absurd early (by decide)
  · rw [show state = .error from error] at early
    exact absurd early (by decide)

theorem reaches_over (early : state.rank < 17) (here : line.drop p = field ++ rest)
    (advances : ∀ index, ∀ inside : index < field.length, byteAt line (p + index) = field[index] →
      dfaStep line ⟨state, p + index, tokStart, out⟩ = ⟨state, p + index + 1, tokStart, out⟩) :
    Dfa.Reaches line ⟨state, p, tokStart, out⟩ ⟨state, p + field.length, tokStart, out⟩ := by
  let states : ℕ → Dfa := fun index => ⟨state, p + index, tokStart, out⟩
  refine Loop.Reaches.sequence states field.length ?_
  intro index inside
  refine ⟨?_, advances index inside (byteAt_add here inside)⟩
  apply running_of_le early
  have lengths := congrArg length here
  rw [length_drop, length_append] at lengths
  omega

theorem reaches_turn (early : state.rank < 17) (here : line.drop p = byte :: rest)
    (turn : byteAt line p = byte → dfaStep line ⟨state, p, tokStart, out⟩ = next) :
    Dfa.Reaches line ⟨state, p, tokStart, out⟩ next :=
  Loop.Reaches.single (running_of_le early (lt_length_of_drop here).le) (turn (byteAt_of_drop here))

theorem reaches_field (early : state.rank < 17) (here : line.drop p = field ++ byte :: rest)
    (advances : ∀ q, byteAt line q ∈ field →
      dfaStep line ⟨state, q, tokStart, out⟩ = ⟨state, q + 1, tokStart, out⟩)
    (leaves : byteAt line (p + field.length) = byte →
      dfaStep line ⟨state, p + field.length, tokStart, out⟩ = next) :
    Dfa.Reaches line ⟨state, p, tokStart, out⟩ next := by
  have passed : Dfa.Reaches line ⟨state, p, tokStart, out⟩
      ⟨state, p + field.length, tokStart, out⟩ := by
    apply reaches_over early here
    intro index inside byte
    apply advances
    rw [byte]
    exact getElem_mem inside
  exact passed.trans (reaches_turn early (drop_length here) leaves)

theorem reaches_ip (nonempty : field ≠ []) (here : line.drop p = field ++ 32 :: rest)
    (plain : ∀ byte ∈ field, byte ≠ 32 ∧ byte ≠ 0) :
    ∃ q, line.drop q = rest ∧
      Dfa.Reaches line ⟨.ipStart, p, tokStart, out⟩
        ⟨.skipIdent, q, p, { out with ip := stripIpv6Brackets line p field.length }⟩ := by
  rcases field with _ | ⟨first, field⟩
  · exact absurd rfl nonempty
  have later := drop_succ here
  refine ⟨p + 1 + field.length + 1, drop_succ (drop_length later), ?_⟩
  have start : Dfa.Reaches line ⟨.ipStart, p, tokStart, out⟩ ⟨.ip, p + 1, p, out⟩ := by
    apply reaches_turn (by decide) here
    intro byte
    simp [dfaStep, Dfa.ipTurn, byte, plain first]
  apply start.trans
  apply reaches_field (by decide) later
  · intro q member
    simp [dfaStep, Dfa.ipTurn, plain _ (mem_cons_of_mem first member)]
  · intro byte
    have length : p + 1 + field.length - p = (first :: field).length := by
      rw [length_cons]
      omega
    simp [dfaStep, Dfa.ipTurn, byte, length]

theorem reaches_bracket {user : Bytes} (here : line.drop p = field ++ 32 :: (user ++ 32 :: rest))
    (plainField : ∀ byte ∈ field, byte ≠ 32) (plainUser : ∀ byte ∈ user, byte ≠ 32) :
    ∃ q, line.drop q = rest ∧
      Dfa.Reaches line ⟨.skipIdent, p, tokStart, out⟩ ⟨.bracket, q, tokStart, out⟩ := by
  have atUser := drop_succ (drop_length here)
  have skipField : skipWhile (· ≠ 32) line p = p + field.length :=
    skipWhile_of_drop here (by simpa using plainField) (by simp)
  have skipUser : skipWhile (· ≠ 32) line (p + field.length + 1) = p + field.length + 1 + user.length :=
    skipWhile_of_drop atUser (by simpa using plainUser) (by simp)
  have inside := lt_length_of_drop (drop_length atUser)
  refine ⟨_, drop_succ (drop_length atUser), ?_⟩
  apply Loop.Reaches.step (running_of_le (by decide) (by omega))
  simp only [dfaStep, skipField]
  apply Loop.Reaches.single (running_of_le (by decide) (by omega))
  simp only [dfaStep, skipUser]

theorem reaches_method
    (here : line.drop p = chr '[' :: (field ++ chr ']' :: 32 :: chr '"' :: rest))
    (plain : chr ']' ∉ field) (stops : ∀ byte ∈ rest.head?, byte ≠ 32 ∧ byte ≠ chr '"') :
    ∃ q, line.drop q = rest ∧
      Dfa.Reaches line ⟨.bracket, p, tokStart, out⟩
        ⟨.method, q, q, { out with ts := parseTimestamp field }⟩ := by
  have opened : Dfa.Reaches line ⟨.bracket, p, tokStart, out⟩ ⟨.timestamp, p + 1, p + 1, out⟩ := by
    apply reaches_turn (by decide) here
    intro bracket
    simp [dfaStep, bracket]
  have text := drop_succ here
  have after : line.drop (p + 1 + field.length + 1) = [32, chr '"'] ++ rest :=
    drop_succ (drop_length text)
  have skipped : skipWhile (fun byte => byte = 32 || byte = chr '"') line (p + 1 + field.length + 1) =
      p + 1 + field.length + 1 + 2 :=
    skipWhile_of_drop after (by simp) fun byte head => by simp [stops byte head]
  refine ⟨_, drop_length after, opened.trans ?_⟩
  apply reaches_field (by decide) text
  · intro q member
    have other : byteAt line q ≠ chr ']' := fun closing => plain (closing ▸ member)
    simp [dfaStep, other]
  · intro bracket
    have view : (Dfa.field ⟨.timestamp, p + 1 + field.length, p + 1, out⟩).bytes line = field := by
      rw [Dfa.field, Nat.add_sub_cancel_left]
      exact bytes_of_drop text
    simp [dfaStep, bracket, skipped, view]

theorem reaches_url (here : line.drop p = field ++ 32 :: rest)
    (plain : ∀ byte ∈ field, byte ≠ 32 ∧ byte ≠ 0) :
    ∃ q, line.drop q = rest ∧
      Dfa.Reaches line ⟨.method, p, p, out⟩
        ⟨.url, q, q, { out with method := .line p field.length }⟩ := by
  refine ⟨_, drop_succ (drop_length here), ?_⟩
  apply reaches_field (by decide) here
  · intro q member
    simp [dfaStep, plain _ member]
  · intro space
    simp [dfaStep, space, Dfa.field]

theorem reaches_protocol (here : line.drop p = field ++ 32 :: rest)
    (plain : ∀ byte ∈ field, byte ≠ 32 ∧ byte ≠ chr '"' ∧ byte ≠ 0) :
    ∃ q, line.drop q = rest ∧
      Dfa.Reaches line ⟨.url, p, p, out⟩
        ⟨.protocol, q, q, { out with url := .line p field.length }⟩ := by
  refine ⟨_, drop_succ (drop_length here), ?_⟩
  apply reaches_field (by decide) here
  · intro q member
    simp [dfaStep, plain _ member]
  · intro space
    simp [dfaStep, space, Dfa.field]

theorem reaches_status (here : line.drop p = field ++ chr '"' :: 32 :: rest)
    (plain : ∀ byte ∈ field, byte ≠ 32 ∧ byte ≠ chr '"' ∧ byte ≠ 0)
    (digit : ∀ byte ∈ rest.head?, isDigit byte = true) :
    ∃ q, line.drop q = rest ∧
      Dfa.Reaches line ⟨.protocol, p, p, out⟩
        ⟨.status, q, q, { out with protocol := .line p field.length }⟩ := by
  have after : line.drop (p + field.length) = [chr '"', 32] ++ rest := drop_length here
  have skipped : skipWhile (fun byte => byte = chr '"' || byte = 32) line (p + field.length) =
      p + field.length + 2 := by
    apply skipWhile_of_drop after (by simp)
    intro byte head
    have quote := ne_of_isDigit (digit byte head) (show isDigit (chr '"') = false by decide)
    have space := ne_of_isDigit (digit byte head) (show isDigit 32 = false by decide)
    simp [quote, space]
  refine ⟨_, drop_length after, ?_⟩
  apply reaches_field (by decide) here
  · intro q member
    simp [dfaStep, plain _ member]
  · intro quote
    simp [dfaStep, quote, skipped, Dfa.field]

def accumulate (wrap : ℤ → ℤ) (digits : Bytes) (value : ℤ) : ℤ :=
  digits.foldl (fun value digit => wrap (value * 10 + digitValue digit)) value

theorem accumulate_eq {wrap : ℤ → ℤ} {bound : ℕ} {digits : Bytes}
    (wraps : ∀ value : ℤ, 0 ≤ value → value < bound → wrap value = value)
    (fits : decimalValue digits < bound) : accumulate wrap digits 0 = decimalValue digits := by
  induction digits using reverseRecOn with
  | nil => rfl
  | append_singleton digits digit ih =>
    have value : decimalValue (digits ++ [digit]) = 10 * decimalValue digits + digitValue digit := by
      simp [decimalValue]
    have before := ih (by omega)
    unfold accumulate at before ⊢
    rw [foldl_append]
    simp only [foldl_cons, foldl_nil]
    rw [wraps]
    all_goals omega

theorem reaches_digits (push : LogEntry → UInt8 → LogEntry) (early : state.rank < 17)
    (turn : ∀ q out, isDigit (byteAt line q) = true → dfaStep line ⟨state, q, tokStart, out⟩ =
      ⟨state, q + 1, tokStart, push out (byteAt line q)⟩)
    (here : line.drop p = field ++ rest) (digits : ∀ byte ∈ field, isDigit byte = true) :
    Dfa.Reaches line ⟨state, p, tokStart, out⟩
      ⟨state, p + field.length, tokStart, field.foldl push out⟩ := by
  induction field generalizing p out with
  | nil => exact .refl _
  | cons digit field ih =>
    have start : Dfa.Reaches line ⟨state, p, tokStart, out⟩
        ⟨state, p + 1, tokStart, push out digit⟩ := by
      apply reaches_turn early here
      intro read
      rw [turn p out (by rw [read]; exact digits digit mem_cons_self), read]
    apply start.trans
    rw [length_cons, Nat.add_comm field.length, ← Nat.add_assoc]
    exact ih (drop_succ here) fun byte member => digits byte (mem_cons_of_mem _ member)

/-- The turn of `ST_STATUS` at a digit. -/
def LogEntry.pushStatus (out : LogEntry) (digit : UInt8) : LogEntry :=
  { out with status := toCInt (out.status * 10 + digitValue digit) }

/-- The turn of `ST_BYTES` at a digit. -/
def LogEntry.pushBytes (out : LogEntry) (digit : UInt8) : LogEntry :=
  { out with bytes := Int.bmod (out.bytes * 10 + digitValue digit) (2 ^ 64) }

theorem foldl_pushStatus (digits : Bytes) (out : LogEntry) :
    digits.foldl LogEntry.pushStatus out =
      { out with status := accumulate toCInt digits out.status } := by
  induction digits generalizing out with
  | nil => rfl
  | cons digit digits ih =>
    rw [foldl_cons, ih]
    rfl

theorem foldl_pushBytes (digits : Bytes) (out : LogEntry) :
    digits.foldl LogEntry.pushBytes out =
      { out with bytes := accumulate (Int.bmod · (2 ^ 64)) digits out.bytes } := by
  induction digits generalizing out with
  | nil => rfl
  | cons digit digits ih =>
    rw [foldl_cons, ih]
    rfl

theorem reaches_bytes (here : line.drop p = field ++ 32 :: rest)
    (digits : ∀ byte ∈ field, isDigit byte = true) (stops : ∀ byte ∈ rest.head?, byte ≠ 32) :
    ∃ q, line.drop q = rest ∧
      Dfa.Reaches line ⟨.status, p, tokStart, out⟩
        ⟨.bytes, q, q, { out with status := accumulate toCInt field out.status }⟩ := by
  have after : line.drop (p + field.length) = [32] ++ rest := drop_length here
  have skipped : skipWhile (· = 32) line (p + field.length) = p + field.length + 1 :=
    skipWhile_of_drop after (by simp) fun byte head => by simp [stops byte head]
  refine ⟨_, drop_length after, ?_⟩
  rw [← foldl_pushStatus]
  have turn : ∀ q out, isDigit (byteAt line q) = true →
      dfaStep line ⟨.status, q, tokStart, out⟩ =
        ⟨.status, q + 1, tokStart, out.pushStatus (byteAt line q)⟩ := by
    intro q out digit
    simp [dfaStep, digit, LogEntry.pushStatus]
  apply (reaches_digits LogEntry.pushStatus (by decide) turn here digits).trans
  apply reaches_turn (by decide) after
  intro space
  simp [dfaStep, space, skipped, isDigit]

theorem reaches_skipRef (here : line.drop p = field ++ 32 :: chr '"' :: rest)
    (digits : ∀ byte ∈ field, isDigit byte = true) :
    ∃ q, line.drop q = chr '"' :: rest ∧
      Dfa.Reaches line ⟨.bytes, p, tokStart, out⟩
        ⟨.skipRef, q, tokStart,
          { out with bytes := accumulate (Int.bmod · (2 ^ 64)) field out.bytes }⟩ := by
  have after : line.drop (p + field.length) = [32] ++ chr '"' :: rest := drop_length here
  have skipped : skipWhile (· = 32) line (p + field.length) = p + field.length + 1 :=
    skipWhile_of_drop after (by simp) (by simp; decide)
  have quote : byteAt line (p + field.length + 1) = chr '"' := byteAt_of_drop (drop_length after)
  refine ⟨_, drop_length after, ?_⟩
  rw [← foldl_pushBytes]
  have turn : ∀ q out, isDigit (byteAt line q) = true →
      dfaStep line ⟨.bytes, q, tokStart, out⟩ =
        ⟨.bytes, q + 1, tokStart, out.pushBytes (byteAt line q)⟩ := by
    intro q out digit
    simp [dfaStep, digit, LogEntry.pushBytes]
  apply (reaches_digits LogEntry.pushBytes (by decide) turn here digits).trans
  apply reaches_turn (by decide) after
  intro space
  simp [dfaStep, space, skipped, quote, isDigit]

/-- Every quote and backslash of a field belongs to a pair that starts with a backslash. -/
abbrev Escaped (field : Bytes) : Prop := Escape.Balanced (chr '"') (chr '\\') field

theorem skipQuoted_of_escaped (escaped : Escaped field) :
    skipQuoted (field ++ chr '"' :: rest) = field.length := by
  unfold Escaped at escaped
  induction field using Escape.Balanced.induct (chr '\\') with
  | case1 => cases rest <;> simp [skipQuoted]
  | case2 symbol =>
    rw [Escape.Balanced] at escaped
    cases rest <;> simp [skipQuoted, escaped]
  | case3 next field ih =>
    rw [cons_append, cons_append, skipQuoted, if_neg (by decide), if_pos rfl, ih escaped,
      length_cons, length_cons]
    omega
  | case4 symbol next field plain ih =>
    rw [Escape.Balanced, if_neg plain] at escaped
    rw [cons_append, cons_append, skipQuoted, if_neg escaped.1, if_neg plain,
      ← cons_append, ih escaped.2, Nat.add_comm]
    rfl

theorem closingQuote_iff (here : line.drop p = field ++ rest) (inside : index ≤ field.length) :
    isUnescapedClosingQuote line p (p + index) = true ↔
      byteAt line (p + index) = chr '"' ∧
        Escape.trailing (chr '\\') (field.take index) % 2 = 0 := by
  have text : (line.take (p + index)).drop p = field.take index := by
    rw [drop_take, Nat.add_sub_cancel_left, here, take_append_of_le_length inside]
  unfold isUnescapedClosingQuote
  rw [text]
  simp [Escape.trailing]

theorem closes_after_escaped (here : line.drop p = field ++ chr '"' :: rest)
    (escaped : Escaped field) : isUnescapedClosingQuote line p (p + field.length) = true := by
  rw [closingQuote_iff here le_rfl, take_length]
  refine ⟨byteAt_of_drop (drop_length here), ?_⟩
  have even : Escape.trailing (chr '\\') ([] ++ field) % 2 = 0 :=
    Escape.even_trailing_append rfl escaped
  exact even

theorem not_closes_inside_escaped (here : line.drop p = field ++ rest) (escaped : Escaped field)
    (inside : index < field.length) :
    isUnescapedClosingQuote line p (p + index) = false := by
  rw [← Bool.not_eq_true, closingQuote_iff here inside.le, byteAt_add here inside]
  rintro ⟨quote, even⟩
  have split : field = field.take index ++ chr '"' :: field.drop (index + 1) := by
    rw [← quote, getElem_cons_drop, take_append_drop]
  have odd : Escape.trailing (chr '\\') ([] ++ field.take index) % 2 = 1 :=
    Escape.odd_trailing_of_quote (by decide) rfl escaped split
  rw [nil_append] at odd
  omega

theorem reaches_ua (here : line.drop p = chr '"' :: (field ++ chr '"' :: 32 :: chr '"' :: rest))
    (escaped : Escaped field) :
    ∃ q, line.drop q = rest ∧
      Dfa.Reaches line ⟨.skipRef, p, tokStart, out⟩ ⟨.ua, q, q, out⟩ := by
  have text := drop_succ here
  have closing := drop_length text
  have after : line.drop (p + 1 + field.length + 1) = [32] ++ chr '"' :: rest := drop_succ closing
  have skipped : skipWhile (· = 32) line (p + 1 + field.length + 1) = p + 1 + field.length + 1 + 1 :=
    skipWhile_of_drop after (by simp) (by simp; decide)
  have opening : byteAt line (p + 1 + field.length + 1 + 1) = chr '"' :=
    byteAt_of_drop (drop_length after)
  have quoted : skipQuoted (line.drop (p + 1)) = field.length := by
    rw [text]
    exact skipQuoted_of_escaped escaped
  refine ⟨_, drop_succ (drop_length after), ?_⟩
  apply reaches_turn (by decide) here
  intro quote
  simp [dfaStep, Dfa.refererTurn, quote, quoted, byteAt_of_drop closing, skipped, opening]

theorem reaches_closing (store : LogEntry → StrView → LogEntry) (next : ParserState)
    (early : state.rank < 17)
    (turn : ∀ q, dfaStep line ⟨state, q, p, out⟩ =
      Dfa.quotedTurn line ⟨state, q, p, out⟩ store next)
    (here : line.drop p = field ++ chr '"' :: rest) (escaped : Escaped field) :
    Dfa.Reaches line ⟨state, p, p, out⟩
      (Dfa.quotedTurn line ⟨state, p + field.length, p, out⟩ store next) := by
  have passed : Dfa.Reaches line ⟨state, p, p, out⟩ ⟨state, p + field.length, p, out⟩ := by
    apply reaches_over early here
    intro index inside _
    rw [turn, Dfa.quotedTurn, not_closes_inside_escaped here escaped inside]
    rfl
  apply passed.trans
  apply reaches_turn early (drop_length here)
  intro _
  exact turn _

theorem reaches_quoted (store : LogEntry → StrView → LogEntry) (next : ParserState)
    (early : state.rank < 17)
    (turn : ∀ q, dfaStep line ⟨state, q, p, out⟩ =
      Dfa.quotedTurn line ⟨state, q, p, out⟩ store next)
    (here : line.drop p = field ++ chr '"' :: 32 :: chr '"' :: rest) (escaped : Escaped field) :
    ∃ q, line.drop q = rest ∧
      Dfa.Reaches line ⟨state, p, p, out⟩ ⟨next, q, q, store out (.line p field.length)⟩ := by
  have after : line.drop (p + field.length + 1) = [32] ++ chr '"' :: rest :=
    drop_succ (drop_length here)
  have skipped : skipWhile (· = 32) line (p + field.length + 1) = p + field.length + 1 + 1 :=
    skipWhile_of_drop after (by simp) (by simp; decide)
  have opening : byteAt line (p + field.length + 1 + 1) = chr '"' :=
    byteAt_of_drop (drop_length after)
  refine ⟨_, drop_succ (drop_length after), ?_⟩
  have path := reaches_closing store next early turn here escaped
  rw [Dfa.quotedTurn, closes_after_escaped here escaped] at path
  simpa [skipped, opening, Dfa.field] using path

theorem reaches_lastQuoted (store : LogEntry → StrView → LogEntry) (next : ParserState)
    (early : state.rank < 17)
    (turn : ∀ q, dfaStep line ⟨state, q, p, out⟩ =
      Dfa.quotedTurn line ⟨state, q, p, out⟩ store next)
    (here : line.drop p = field ++ [chr '"']) (escaped : Escaped field) :
    ∃ q, Dfa.Reaches line ⟨state, p, p, out⟩ ⟨.done, q, p, store out (.line p field.length)⟩ := by
  have after : line.drop (p + field.length + 1) = [] := drop_succ (drop_length here)
  have skipped : skipWhile (· = 32) line (p + field.length + 1) = p + field.length + 1 := by
    rw [skipWhile, after]
    rfl
  have ended : byteAt line (p + field.length + 1) ≠ chr '"' := by
    rw [byteAt, getD_eq_default _ _ (List.drop_eq_nil_iff.mp after)]
    decide
  refine ⟨p + field.length + 1, ?_⟩
  have path := reaches_closing store next early turn here escaped
  rw [Dfa.quotedTurn, closes_after_escaped here escaped] at path
  simpa [skipped, ended, Dfa.field] using path

theorem reaches_xff (here : line.drop p = field ++ chr '"' :: 32 :: chr '"' :: rest)
    (escaped : Escaped field) :
    ∃ q, line.drop q = rest ∧
      Dfa.Reaches line ⟨.ua, p, p, out⟩
        ⟨.xff, q, q, { out with userAgent := .line p field.length }⟩ :=
  reaches_quoted (fun out view => { out with userAgent := view }) .xff (by decide) (fun _ => rfl) here
    escaped

theorem reaches_body (here : line.drop p = field ++ chr '"' :: 32 :: chr '"' :: rest)
    (escaped : Escaped field) :
    ∃ q, line.drop q = rest ∧
      Dfa.Reaches line ⟨.xff, p, p, out⟩
        ⟨.body, q, q, { out with xff := .line p field.length }⟩ :=
  reaches_quoted (fun out view => { out with xff := view }) .body (by decide) (fun _ => rfl) here
    escaped

theorem reaches_cookie (here : line.drop p = field ++ chr '"' :: 32 :: chr '"' :: rest)
    (escaped : Escaped field) :
    ∃ q, line.drop q = rest ∧
      Dfa.Reaches line ⟨.body, p, p, out⟩
        ⟨.cookie, q, q, { out with body := bodyOrNull line (.line p field.length) }⟩ :=
  reaches_quoted (fun out view => { out with body := bodyOrNull line view }) .cookie (by decide) (fun _ => rfl) here
    escaped

theorem reaches_host (here : line.drop p = field ++ chr '"' :: 32 :: chr '"' :: rest)
    (escaped : Escaped field) :
    ∃ q, line.drop q = rest ∧
      Dfa.Reaches line ⟨.cookie, p, p, out⟩
        ⟨.host, q, q, { out with cookie := dashAsNull line (.line p field.length) }⟩ :=
  reaches_quoted (fun out view => { out with cookie := dashAsNull line view }) .host (by decide) (fun _ => rfl) here
    escaped

theorem reaches_done_xff (here : line.drop p = field ++ [chr '"']) (escaped : Escaped field) :
    ∃ q, Dfa.Reaches line ⟨.xff, p, p, out⟩
      ⟨.done, q, p, { out with xff := .line p field.length }⟩ :=
  reaches_lastQuoted (fun out view => { out with xff := view }) .body (by decide) (fun _ => rfl) here
    escaped

theorem reaches_done (here : line.drop p = field ++ chr '"' :: rest) (escaped : Escaped field) :
    ∃ q, Dfa.Reaches line ⟨.host, p, p, out⟩
      ⟨.done, q, p, { out with host := dashAsNull line (.line p field.length) }⟩ := by
  have passed : Dfa.Reaches line ⟨.host, p, p, out⟩ ⟨.host, p + field.length, p, out⟩ := by
    apply reaches_over (by decide) here
    intro index inside _
    simp [dfaStep, not_closes_inside_escaped here escaped inside]
  refine ⟨p + field.length + 1, passed.trans ?_⟩
  apply reaches_turn (by decide) (drop_length here)
  intro _
  simp [dfaStep, closes_after_escaped here escaped, Dfa.field]

structure LineFront where
  ip : Bytes
  user : Bytes
  time : Bytes
  method : Bytes
  url : Bytes
  protocol : Bytes
  status : Bytes
  bytes : Bytes
  referer : Bytes

namespace LineFront

variable (front : LineFront)

def render : Bytes :=
  front.ip ++ ascii " - " ++ front.user ++ ascii " [" ++ front.time ++ ascii "] \"" ++
    front.method ++ ascii " " ++ front.url ++ ascii " " ++ front.protocol ++ ascii "\" " ++
    front.status ++ ascii " " ++ front.bytes ++ ascii " \"" ++ front.referer ++ ascii "\" \""

/-- Fields that the automaton finds in their places. -/
structure InOrder : Prop where
  words : ∀ word ∈ [front.ip, front.user, front.method, front.url, front.protocol],
    word ≠ [] ∧ ∀ byte ∈ word, byte ≠ 32 ∧ byte ≠ chr '"' ∧ byte ≠ 0
  time : chr ']' ∉ front.time
  numerals : ∀ numeral ∈ [front.status, front.bytes],
    numeral ≠ [] ∧ ∀ byte ∈ numeral, isDigit byte = true
  referer : Escaped front.referer

/-- The entry after the front, with views that show its fields. -/
structure Stored (line : Bytes) (out : LogEntry) : Prop where
  ip : out.ip = stripIpv6Brackets line 0 front.ip.length
  method : out.method.bytes line = front.method
  url : out.url.bytes line = front.url
  protocol : out.protocol.bytes line = front.protocol
  ts : out.ts = parseTimestamp front.time
  status : out.status = accumulate toCInt front.status 0
  bytes : out.bytes = accumulate (Int.bmod · (2 ^ 64)) front.bytes 0
  body : out.body = .null

end LineFront

theorem head?_append_of_ne_nil {first second : Bytes} (nonempty : first ≠ []) :
    ∀ byte ∈ (first ++ second).head?, byte ∈ first := by
  rcases first with _ | ⟨head, first⟩
  · exact absurd rfl nonempty
  · simp

theorem reaches_front {front : LineFront} (inOrder : front.InOrder)
    (here : line = front.render ++ rest) :
    ∃ q out, line.drop q = rest ∧ front.Stored line out ∧
      Dfa.Reaches line {} ⟨.ua, q, q, out⟩ := by
  have words := inOrder.words
  have numerals := inOrder.numerals
  simp only [mem_cons, not_mem_nil, or_false, forall_eq_or_imp, forall_eq] at words numerals
  rcases words with ⟨ip, user, method, url, protocol⟩
  rcases numerals with ⟨status, bytes⟩
  have literals : ascii " - " = [32, chr '-', 32] ∧ ascii " [" = [32, chr '['] ∧
      ascii "] \"" = [chr ']', 32, chr '"'] ∧ ascii " " = [32] ∧ ascii "\" " = [chr '"', 32] ∧
      ascii " \"" = [32, chr '"'] ∧ ascii "\" \"" = [chr '"', 32, chr '"'] := by
    decide
  have start : line.drop 0 = front.ip ++ 32 :: ([chr '-'] ++ 32 :: (front.user ++ 32 ::
      chr '[' :: (front.time ++ chr ']' :: 32 :: chr '"' :: (front.method ++ 32 :: (front.url ++ 32 ::
      (front.protocol ++ chr '"' :: 32 :: (front.status ++ 32 :: (front.bytes ++ 32 :: chr '"' ::
      (front.referer ++ chr '"' :: 32 :: chr '"' :: rest))))))))) := by
    delta LineFront.render at here
    simp [here, literals, cons_append]
  rcases reaches_ip ip.1 start fun byte member => ⟨(ip.2 byte member).1, (ip.2 byte member).2.2⟩
    with ⟨atIdent, fromIdent, readIp⟩
  rcases reaches_bracket fromIdent (by rw [forall_mem_singleton]; decide) (fun byte member => (user.2 byte member).1)
    with ⟨atBracket, fromBracket, readUser⟩
  rcases reaches_method fromBracket inOrder.time (fun byte head =>
      have word := method.2 byte (head?_append_of_ne_nil method.1 byte head)
      ⟨word.1, word.2.1⟩)
    with ⟨atMethod, fromMethod, readTime⟩
  rcases reaches_url fromMethod fun byte member => ⟨(method.2 byte member).1, (method.2 byte member).2.2⟩
    with ⟨atUrl, fromUrl, readMethod⟩
  rcases reaches_protocol fromUrl url.2 with ⟨atProtocol, fromProtocol, readUrl⟩
  rcases reaches_status fromProtocol protocol.2
      (fun byte head => status.2 byte (head?_append_of_ne_nil status.1 byte head))
    with ⟨atStatus, fromStatus, readProtocol⟩
  rcases reaches_bytes fromStatus status.2 (fun byte head =>
      ne_of_isDigit (bytes.2 byte (head?_append_of_ne_nil bytes.1 byte head)) (by decide))
    with ⟨atBytes, fromBytes, readStatus⟩
  rcases reaches_skipRef fromBytes bytes.2 with ⟨atReferer, fromReferer, readBytes⟩
  rcases reaches_ua fromReferer inOrder.referer with ⟨atUa, fromUa, readReferer⟩
  refine ⟨atUa, _, fromUa, ?_, readIp.trans <| readUser.trans <| readTime.trans <| readMethod.trans <|
    readUrl.trans <| readProtocol.trans <| readStatus.trans <| readBytes.trans readReferer⟩
  exact ⟨rfl, bytes_of_drop fromMethod, bytes_of_drop fromUrl, bytes_of_drop fromProtocol, rfl, rfl, rfl,
    rfl⟩

theorem StrView.len_ne_zero {line : Bytes} {view : StrView} (shown : view.bytes line ≠ []) :
    view.len ≠ 0 := by
  intro empty
  apply shown
  cases view with
  | null => rfl
  | line start length =>
    rw [show length = 0 from empty]
    rfl
  | text bytes => exact List.length_eq_zero_iff.mp empty

theorem parseLogLine_of_unsniffed {env : ParserEnv} (nonempty : line ≠ [])
    (untampered : logLineIsTampered line = false) (noSshd : hasLit line (ascii "sshd[") = false)
    (noSudo : hasLit line (ascii "sudo[") = false) :
    parseLogLine env line = acceptEntry env line (runDfa line) := by
  unfold parseLogLine parseAuthSshdLine parseAuthSudoLine
  simp [nonempty, untampered, noSshd, noSudo]

theorem acceptEntry_of_fields {env : ParserEnv} {dfa : Dfa} (state : dfa.state ≠ .error)
    (ip : dfa.out.ip.len ≠ 0) (ts : dfa.out.ts ≠ 0) (method : dfa.out.method.len ≠ 0)
    (url : dfa.out.url.len ≠ 0) (status : 100 ≤ dfa.out.status ∧ dfa.out.status ≤ 599) :
    acceptEntry env line dfa =
      .ok (applyXff env line { dfa.out with respBytes := dfa.out.bytes }) := by
  unfold acceptEntry
  rw [if_neg]
  rintro (error | noIp | noTime | noMethod | noUrl | low | high)
  · exact state error
  · exact ip noIp
  · exact ts noTime
  · exact method noMethod
  · exact url noUrl
  · omega
  · omega

end LogGuardian
