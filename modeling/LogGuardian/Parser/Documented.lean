import LogGuardian.Parser.RoundTrip

/-!
# The documented log format
-/

namespace LogGuardian

open List

/-- An unescaped quote of a line. -/
abbrev Delimits (line : Bytes) (p : ℕ) : Prop := Escape.Delimits (chr '"') (chr '\\') line p

abbrev quotesFrom (line : Bytes) (p : ℕ) : ℕ := Escape.quotesFrom (chr '"') (chr '\\') line p

theorem quotesFrom_of_delimits {line : Bytes} {p : ℕ} (delimits : Delimits line p) :
    quotesFrom line p = quotesFrom line (p + 1) + 1 :=
  Escape.quotesFrom_of_delimits delimits

theorem quotesFrom_le (line : Bytes) {p q : ℕ} (le : p ≤ q) : quotesFrom line q ≤ quotesFrom line p :=
  Escape.quotesFrom_antitone line le

/-- No backslash stands before a position. -/
def Fresh (line : Bytes) (p : ℕ) : Prop := Escape.trailing (chr '\\') (line.take p) = 0

variable {line : Bytes} {p : ℕ}

variable {byte : UInt8} {start count : ℕ} {dfa : Dfa} {env : ParserEnv} {entry : LogEntry}

theorem getElem?_of_byteAt (here : byteAt line p = byte) (nonzero : byte ≠ 0) :
    (line)[p]? = some byte := by
  by_cases inside : p < line.length
  · rw [byteAt, getD_eq_getElem _ _ inside] at here
    rw [List.getElem?_eq_getElem inside, here]
  · rw [byteAt, getD_eq_default _ _ (by omega)] at here
    exact absurd here.symm nonzero

theorem fresh_succ (here : byteAt line p = byte) (nonzero : byte ≠ 0) (other : byte ≠ chr '\\') :
    Fresh line (p + 1) := by
  rcases List.getElem?_eq_some_iff.mp (getElem?_of_byteAt here nonzero) with ⟨inside, same⟩
  unfold Fresh
  rw [take_succ_eq_append_getElem inside, same]
  exact Escape.trailing_append_of_ne _ other

theorem Delimits.byteAt_eq (delimits : Delimits line p) : byteAt line p = chr '"' := by
  rw [byteAt, getD_eq_getElem?_getD, delimits.1, Option.getD_some]

theorem delimits_of_fresh (fresh : Fresh line p) (quote : byteAt line p = chr '"') :
    Delimits line p := by
  refine ⟨getElem?_of_byteAt quote (by decide), ?_⟩
  rw [show Escape.trailing (chr '\\') (line.take p) = 0 from fresh]

theorem skipWhile_eq_of_take (skip : UInt8 → Bool) (line : Bytes) (p : ℕ) :
    line.take (skipWhile skip line p) = line.take p ++ (line.drop p).takeWhile skip := by
  rw [skipWhile, take_add]
  congr 1
  exact (List.prefix_iff_eq_take.mp ( takeWhile_prefix _)).symm

theorem fresh_skipWhile (fresh : Fresh line p) : Fresh line (skipWhile (· = 32) line p) := by
  unfold Fresh
  rw [skipWhile_eq_of_take, Escape.trailing_append_of_zero fresh]
  apply Escape.trailing_of_not_mem
  intro member
  have space : chr '\\' = 32 := by simpa using mem_takeWhile_imp member
  exact absurd space (by decide)

theorem delimits_of_closing (fresh : Fresh line start) (le : start ≤ p)
    (closing : isUnescapedClosingQuote line start p = true) : Delimits line p := by
  simp only [isUnescapedClosingQuote, Bool.and_eq_true, decide_eq_true_eq] at closing
  have split : line.take p = line.take start ++ (line.take p).drop start := by
    have whole := (take_append_drop start (line.take p)).symm
    rwa [take_take, Nat.min_eq_left le] at whole
  refine ⟨getElem?_of_byteAt closing.1 (by decide), ?_⟩
  rw [split, Escape.trailing_append_of_zero fresh]
  exact closing.2

theorem byteAt_skipWhile (skip : UInt8 → Bool) (zero : skip 0 = false) (line : Bytes) (p : ℕ) :
    skip (byteAt line (skipWhile skip line p)) = false := by
  have here : line.drop p = (line.drop p).takeWhile skip ++ (line.drop p).dropWhile skip :=
    List.takeWhile_append_dropWhile.symm
  have later : line.drop (skipWhile skip line p) = (line.drop p).dropWhile skip := drop_length here
  have stops := head?_dropWhile_not skip (line.drop p)
  rw [← later] at stops
  rcases split : line.drop (skipWhile skip line p) with _ | ⟨byte, rest⟩
  · rw [byteAt, getD_eq_default _ _ (List.drop_eq_nil_iff.mp split)]
    exact zero
  · rw [byteAt_of_drop split]
    simpa [split] using stops

theorem skipQuoted_spec {text : Bytes} (stop : text[skipQuoted text]? = some byte) :
    byte = chr '"' ∧ Escaped (text.take (skipQuoted text)) := by
  induction text using skipQuoted.induct with
  | case1 => simp at stop
  | case2 =>
    simp only [skipQuoted, if_true, List.getElem?_cons_zero, Option.some.injEq] at stop ⊢
    exact ⟨stop.symm, trivial⟩
  | case3 last other => simp [skipQuoted, other] at stop
  | case4 =>
    simp only [skipQuoted, if_true, List.getElem?_cons_zero, Option.some.injEq] at stop ⊢
    exact ⟨stop.symm, trivial⟩
  | case5 next rest _ ih =>
    have pair : skipQuoted (chr '\\' :: next :: rest) = skipQuoted rest + 2 := by
      rw [skipQuoted, if_neg (by decide), if_pos rfl, Nat.add_comm]
    rw [pair] at stop ⊢
    rcases ih (by simpa using stop) with ⟨quote, escaped⟩
    refine ⟨quote, ?_⟩
    exact escaped
  | case6 first next rest other plain ih =>
    have single : skipQuoted (first :: next :: rest) = skipQuoted (next :: rest) + 1 := by
      rw [skipQuoted, if_neg other, if_neg plain, Nat.add_comm]
    rw [single] at stop ⊢
    rcases ih (by simpa using stop) with ⟨quote, escaped⟩
    refine ⟨quote, ?_⟩
    have alone : Escaped [first] := ⟨other, plain⟩
    exact Escape.balanced_append alone escaped

theorem delimits_of_skipQuoted (fresh : Fresh line p)
    (quote : byteAt line (p + skipQuoted (line.drop p)) = chr '"') :
    Delimits line (p + skipQuoted (line.drop p)) := by
  have read := getElem?_of_byteAt quote (by decide)
  have stop : (line.drop p)[skipQuoted (line.drop p)]? = some (chr '"') := by
    rw [List.getElem?_drop]
    exact read
  refine ⟨read, ?_⟩
  rw [take_add]
  apply Escape.even_trailing_append _ (skipQuoted_spec stop).2
  rw [show Escape.trailing (chr '\\') (line.take p) = 0 from fresh]

theorem length_le_of_skipQuoted
    (other : byteAt line (p + skipQuoted (line.drop p)) ≠ chr '"') :
    line.length ≤ p + skipQuoted (line.drop p) := by
  by_contra inside
  have stop : (line.drop p)[skipQuoted (line.drop p)]? =
      some (byteAt line (p + skipQuoted (line.drop p))) := by
    rw [List.getElem?_drop, byteAt, getD_eq_getElem _ _ (by omega), List.getElem?_eq_getElem]
  exact other (skipQuoted_spec stop).1

/-- The last byte before the position that is not a space is a digit. -/
def AfterDigit (line : Bytes) (p : ℕ) : Prop :=
  ∃ digits count, line.take p = digits ++ List.replicate count 32 ∧
    ∃ digit ∈ digits.getLast?, isDigit digit = true

/-- A field that starts at a position with at most the given number of quotes from there on. -/
def Budget (line : Bytes) (count start : ℕ) : Prop := Fresh line start ∧ quotesFrom line start ≤ count

/-- What is left of the quotes of a line in each state, when at most `7` are left from a quote
after a digit on. -/
def Dfa.Budgeted (line : Bytes) (dfa : Dfa) : Prop :=
  dfa.out.body = .null ∧
    match dfa.state with
    | .status | .bytes =>
      AfterDigit line dfa.p ∨ (byteAt line dfa.p ≠ 32 ∧ byteAt line dfa.p ≠ chr '"')
    | .skipRef => Delimits line dfa.p ∧ quotesFrom line dfa.p ≤ 7
    | .ua => dfa.tokStart ≤ dfa.p ∧ Budget line 4 dfa.tokStart
    | .xff => dfa.tokStart ≤ dfa.p ∧ Budget line 2 dfa.tokStart
    | .body => dfa.tokStart ≤ dfa.p ∧ Budget line 0 dfa.tokStart
    | .cookie | .host => False
    | _ => True

theorem afterDigit_succ (digit : isDigit (byteAt line p) = true) : AfterDigit line (p + 1) := by
  have inside : p < line.length := by
    by_contra outside
    rw [byteAt, getD_eq_default _ _ (by omega)] at digit
    exact absurd digit (by decide)
  refine ⟨line.take (p + 1), 0, by simp, byteAt line p, ?_, digit⟩
  rw [take_succ_eq_append_getElem inside, getLast?_concat, byteAt,
    getD_eq_getElem _ _ inside]
  rfl

theorem afterDigit_skipWhile (after : AfterDigit line p) :
    AfterDigit line (skipWhile (· = 32) line p) := by
  rcases after with ⟨digits, count, split, last⟩
  have spaces : (line.drop p).takeWhile (· = 32) =
      replicate ((line.drop p).takeWhile (· = 32)).length 32 := by
    apply eq_replicate_of_mem
    intro byte member
    simpa using mem_takeWhile_imp member
  refine ⟨digits, count + ((line.drop p).takeWhile (· = 32)).length, ?_, last⟩
  rw [skipWhile_eq_of_take, split, spaces, length_replicate, append_assoc,
    replicate_append_replicate]

theorem afterDigit_or_skipWhile
    (before : AfterDigit line p ∨ (byteAt line p ≠ 32 ∧ byteAt line p ≠ chr '"')) :
    AfterDigit line (skipWhile (· = 32) line p) ∨
      (byteAt line (skipWhile (· = 32) line p) ≠ 32 ∧
        byteAt line (skipWhile (· = 32) line p) ≠ chr '"') := by
  rcases before with after | other
  · exact Or.inl (afterDigit_skipWhile after)
  · right
    have stays : skipWhile (· = 32) line p = p := by
      rcases split : line.drop p with _ | ⟨byte, rest⟩
      · simp [skipWhile, split]
      · have different : byte ≠ 32 := byteAt_of_drop split ▸ other.1
        simp [skipWhile, split, different]
    rw [stays]
    exact other

theorem fresh_of_afterDigit (after : AfterDigit line p) : Fresh line p := by
  rcases after with ⟨digits, count, split, digit, last, isDigit⟩
  have ends : Escape.trailing (chr '\\') digits = 0 := by
    rcases getLast?_eq_some_iff.mp last with ⟨front, rfl⟩
    exact Escape.trailing_append_of_ne _ (ne_of_isDigit isDigit (by decide))
  unfold Fresh
  rw [split, Escape.trailing_append_of_zero ends]
  apply Escape.trailing_of_not_mem
  intro member
  exact absurd (eq_of_mem_replicate member) (by decide)

theorem opening_budget (closing : Delimits line p)
    (opening : byteAt line (skipWhile (· = 32) line (p + 1)) = chr '"')
    (left : quotesFrom line p ≤ count + 2) :
    Budget line count (skipWhile (· = 32) line (p + 1) + 1) := by
  have fresh := fresh_skipWhile (fresh_succ closing.byteAt_eq (by decide) (by decide))
  have first := quotesFrom_of_delimits closing
  have second := quotesFrom_of_delimits (delimits_of_fresh fresh opening)
  have order := quotesFrom_le line (le_skipWhile (· = 32) line (p + 1))
  refine ⟨fresh_succ opening (by decide) (by decide), ?_⟩
  omega

theorem closing_left (budget : Budget line count start) (le : start ≤ p)
    (closing : isUnescapedClosingQuote line start p = true) :
    Delimits line p ∧ quotesFrom line p ≤ count :=
  ⟨delimits_of_closing budget.1 le closing,
    (quotesFrom_le line le).trans budget.2⟩

theorem budgeted_refererTurn {tokStart : ℕ} {out : LogEntry} (body : out.body = .null)
    (opened : Delimits line p) (left : quotesFrom line p ≤ 7) :
    (Dfa.refererTurn line ⟨.skipRef, p, tokStart, out⟩).Budgeted line := by
  have passed := quotesFrom_of_delimits opened
  unfold Dfa.refererTurn
  dsimp only
  rw [if_pos opened.byteAt_eq]
  by_cases closed : byteAt line (p + 1 + skipQuoted (line.drop (p + 1))) = chr '"'
  · have closing := delimits_of_skipQuoted (fresh_succ opened.byteAt_eq (by decide) (by decide)) closed
    have order := quotesFrom_le line (Nat.le_add_right (p + 1) (skipQuoted (line.drop (p + 1))))
    split_ifs with opening
    · exact ⟨body, le_rfl, opening_budget closing opening (by omega)⟩
    · exact ⟨body, trivial⟩
  · have ended := length_le_of_skipQuoted closed
    have skipped := le_skipWhile (· = 32) line (p + 1 + skipQuoted (line.drop (p + 1)))
    rw [if_neg closed, if_neg]
    · exact ⟨body, trivial⟩
    · rw [byteAt, getD_eq_default _ _ (ended.trans skipped)]
      decide

theorem budgeted_dfaStep (limit : ∀ q, Delimits line q → AfterDigit line q → quotesFrom line q ≤ 7)
    (budgeted : dfa.Budgeted line) : (dfaStep line dfa).Budgeted line := by
  rcases dfa with ⟨state, p, tokStart, out⟩
  have body : out.body = .null := budgeted.1
  cases state with
  | ipStart | ip =>
    unfold dfaStep Dfa.ipTurn
    dsimp only
    split_ifs <;> exact ⟨body, trivial⟩
  | skipIdent | skipAuth => exact ⟨body, trivial⟩
  | bracket | timestamp | method | url =>
    unfold dfaStep
    dsimp only
    split_ifs <;> exact ⟨body, trivial⟩
  | protocol =>
    unfold dfaStep
    dsimp only
    split_ifs
    · have stops := byteAt_skipWhile (fun byte => byte = chr '"' || byte = 32) (by decide) line p
      simp only [Bool.or_eq_false_iff, decide_eq_false_iff_not] at stops
      exact ⟨body, Or.inr ⟨stops.2, stops.1⟩⟩
    · exact ⟨body, trivial⟩
  | status =>
    unfold dfaStep
    dsimp only
    split_ifs with digit
    · exact ⟨body, Or.inl (afterDigit_succ digit)⟩
    · exact ⟨body, afterDigit_or_skipWhile budgeted.2⟩
  | bytes =>
    have skipped := afterDigit_or_skipWhile budgeted.2
    unfold dfaStep
    dsimp only at skipped ⊢
    split_ifs with digit quote
    · exact ⟨body, Or.inl (afterDigit_succ digit)⟩
    · rcases skipped with after | other
      · have delimits := delimits_of_fresh (fresh_of_afterDigit after) quote
        exact ⟨body, delimits, limit _ delimits after⟩
      · exact absurd quote other.2
    · exact ⟨body, trivial⟩
  | skipRef => exact budgeted_refererTurn body budgeted.2.1 budgeted.2.2
  | ua | xff =>
    unfold dfaStep Dfa.quotedTurn
    dsimp only
    split_ifs with closing opening
    · rcases closing_left budgeted.2.2 budgeted.2.1 closing with ⟨delimits, left⟩
      exact ⟨body, le_rfl, opening_budget delimits opening left⟩
    · exact ⟨body, trivial⟩
    · exact ⟨body, Nat.le_succ_of_le budgeted.2.1, budgeted.2.2⟩
  | body =>
    unfold dfaStep Dfa.quotedTurn
    dsimp only
    rw [if_neg]
    · exact ⟨body, Nat.le_succ_of_le budgeted.2.1, budgeted.2.2⟩
    · intro closing
      rcases closing_left budgeted.2.2 budgeted.2.1 closing with ⟨delimits, left⟩
      have one := quotesFrom_of_delimits delimits
      omega
  | cookie => exact budgeted.2.elim
  | host => exact budgeted.2.elim
  | done => exact budgeted
  | error => exact budgeted

theorem body_runDfa_of_limit
    (limit : ∀ q, Delimits line q → AfterDigit line q → quotesFrom line q ≤ 7) :
    (runDfa line).out.body = .null := by
  have budgeted : (runDfa line).Budgeted line :=
    Loop.run_invariant (Dfa.Budgeted line) (fun _ _ => budgeted_dfaStep limit) _ ⟨rfl, trivial⟩
  exact budgeted.1

structure DocumentedRequest where
  address : Bytes
  user : Bytes
  time : Bytes
  request : Bytes
  status : ℕ
  bytes : ℕ
  referer : Bytes
  userAgent : Bytes
  body : Bytes
  escaped : ∀ field ∈ [address, user, time, request, referer, userAgent, body], Escaped field

namespace DocumentedRequest

variable (request : DocumentedRequest)

/-- `log_format log_guardian`. -/
def render : Bytes :=
  request.address ++ ascii " - " ++ request.user ++ ascii " [" ++ request.time ++ ascii "] \"" ++
    request.request ++ ascii "\" " ++ numeral request.status ++ ascii " " ++
    numeral request.bytes ++ ascii " \"" ++ request.referer ++ ascii "\" \"" ++
    request.userAgent ++ ascii "\" \"" ++ request.body ++ ascii "\""

/-- The body that the line shows, empty for `-`. -/
def shownBody : Bytes := if request.body = ascii "-" then [] else request.body

/-- The body reaches the detectors as such. -/
def Analysed (entry : LogEntry) : Prop :=
  entry.body.bytes request.render = request.shownBody ∧ entry.xff.bytes request.render = []

def beforeRequest : Bytes :=
  request.address ++ ascii " - " ++ request.user ++ ascii " [" ++ request.time ++ ascii "] "

def numbers : Bytes :=
  ascii " " ++ numeral request.status ++ ascii " " ++ numeral request.bytes ++ ascii " "

theorem render_eq :
    request.render = request.beforeRequest ++ chr '"' :: (request.request ++ chr '"' ::
      (request.numbers ++ chr '"' :: (request.referer ++ chr '"' :: (ascii " " ++ chr '"' ::
      (request.userAgent ++ chr '"' :: (ascii " " ++ chr '"' :: (request.body ++ [chr '"']))))))) := by
  have literals : ascii "] \"" = ascii "] " ++ [chr '"'] ∧ ascii "\" " = [chr '"'] ++ ascii " " ∧
      ascii " \"" = ascii " " ++ [chr '"'] ∧
      ascii "\" \"" = [chr '"'] ++ ascii " " ++ [chr '"'] ∧ ascii "\"" = [chr '"'] := by
    decide
  delta render beforeRequest numbers
  simp [literals]

variable {request}

theorem escaped_numeral (number : ℕ) : Escaped (numeral number) := by
  apply Escape.balanced_of_plain
  intro byte member
  have digit := isDigit_of_mem_numeral member
  exact ⟨ne_of_isDigit digit (by decide), ne_of_isDigit digit (by decide)⟩

theorem escaped_beforeRequest : Escaped request.beforeRequest := by
  have fields := request.escaped
  simp only [mem_cons, forall_eq_or_imp] at fields
  rcases fields with ⟨address, user, time, -⟩
  have dash : Escaped (ascii " - ") := by decide
  have opening : Escaped (ascii " [") := by decide
  have closing : Escaped (ascii "] ") := by decide
  have withUser := Escape.balanced_append (Escape.balanced_append address dash) user
  have withTime := Escape.balanced_append (Escape.balanced_append withUser opening) time
  exact Escape.balanced_append withTime closing

theorem escaped_numbers : Escaped request.numbers := by
  have space : Escaped (ascii " ") := by decide
  have status := Escape.balanced_append space (escaped_numeral request.status)
  have bytes := Escape.balanced_append (Escape.balanced_append status space)
    (escaped_numeral request.bytes)
  exact Escape.balanced_append bytes space

theorem quotesFrom_request : quotesFrom request.render (request.beforeRequest.length + 1) = 7 := by
  have fields := request.escaped
  simp only [mem_cons, not_mem_nil, or_false, forall_eq_or_imp, forall_eq] at fields
  rcases fields with ⟨-, -, -, line, referer, userAgent, body⟩
  have distinct : chr '"' ≠ chr '\\' := by decide
  have space : Escaped (ascii " ") := by decide
  unfold quotesFrom Escape.quotesFrom
  rw [render_eq, take_length_add_append, drop_length_add_append, take_succ_cons,
    take_zero, drop_one, tail_cons, Escape.trailing_append_of_ne _ distinct]
  simp only [Nat.zero_mod, Nat.zero_ne_one, decide_false,
    Escape.quotes_append_of_balanced distinct line,
    Escape.quotes_append_of_balanced distinct escaped_numbers,
    Escape.quotes_append_of_balanced distinct referer,
    Escape.quotes_append_of_balanced distinct space,
    Escape.quotes_append_of_balanced distinct userAgent,
    Escape.quotes_append_of_balanced distinct body, Escape.quotes_cons_quote distinct]
  rfl

theorem not_afterDigit_first : ¬AfterDigit request.render request.beforeRequest.length := by
  rintro ⟨digits, count, split, digit, last, isDigit⟩
  rw [render_eq, take_left] at split
  have closing : ascii "] " = [chr ']', 32] := by decide
  have reversed : replicate count 32 ++ digits.reverse =
      32 :: chr ']' :: (request.address ++ ascii " - " ++ request.user ++ ascii " [" ++
        request.time).reverse := by
    rw [← reverse_replicate, ← reverse_append, ← split]
    delta beforeRequest
    rw [closing, reverse_append]
    rfl
  rw [← head?_reverse] at last
  rcases count with _ | _ | count
  · rw [replicate_zero, nil_append] at reversed
    rw [reversed] at last
    rw [← Option.some.inj last] at isDigit
    exact absurd isDigit (by decide)
  · have rest : digits.reverse = _ := (List.cons.inj reversed).2
    rw [rest] at last
    rw [← Option.some.inj last] at isDigit
    exact absurd isDigit (by decide)
  · have second := (List.cons.inj (List.cons.inj reversed).2).1
    exact absurd second (by decide)

theorem limit {p : ℕ} (delimits : Delimits request.render p) (after : AfterDigit request.render p) :
    quotesFrom request.render p ≤ 7 := by
  rcases Nat.lt_trichotomy p request.beforeRequest.length with before | rfl | later
  · rcases delimits with ⟨quote, even⟩
    rw [render_eq, List.getElem?_append_left before] at quote
    rw [render_eq, take_append_of_le_length before.le] at even
    rcases List.getElem?_eq_some_iff.mp quote with ⟨_, symbol⟩
    have split : request.beforeRequest =
        request.beforeRequest.take p ++ chr '"' :: request.beforeRequest.drop (p + 1) := by
      rw [← symbol, getElem_cons_drop, take_append_drop]
    have odd : Escape.trailing (chr '\\') ([] ++ request.beforeRequest.take p) % 2 = 1 :=
      Escape.odd_trailing_of_quote (by decide) rfl escaped_beforeRequest split
    rw [nil_append] at odd
    omega
  · exact absurd after not_afterDigit_first
  · exact (quotesFrom_le _ later).trans quotesFrom_request.le

theorem body_runDfa (request : DocumentedRequest) : (runDfa request.render).out.body = .null :=
  body_runDfa_of_limit fun _ => limit

end DocumentedRequest

theorem body_acceptEntry (accepted : acceptEntry env line dfa = .ok entry) :
    entry.body = dfa.out.body ∧ entry.xff = dfa.out.xff := by
  unfold acceptEntry applyXff at accepted
  dsimp only at accepted
  split_ifs at accepted <;> cases accepted <;> exact ⟨rfl, rfl⟩

theorem body_sniffed
    (sniffed : (parseAuthSshdLine env line <|> parseAuthSudoLine env line) = some entry) :
    entry.body = .null ∧ entry.xff = .null := by
  rcases sshd : parseAuthSshdLine env line with _ | found
  · have sudoLine : parseAuthSudoLine env line = some entry := by simpa [sshd] using sniffed
    unfold parseAuthSudoLine at sudoLine
    split_ifs at sudoLine
    rcases Option.map_eq_some_iff.mp sudoLine with ⟨ip, -, rfl⟩
    exact ⟨rfl, rfl⟩
  · have same : found = entry := by simpa [sshd] using sniffed
    unfold parseAuthSshdLine at sshd
    split_ifs at sshd
    rcases Option.map_eq_some_iff.mp sshd with ⟨ip, -, rfl⟩
    rw [← same]
    exact ⟨rfl, rfl⟩

theorem parseLogLine_cases (parsed : parseLogLine env line = .ok entry) :
    (parseAuthSshdLine env line <|> parseAuthSudoLine env line) = some entry ∨
      (parseAuthSshdLine env line <|> parseAuthSudoLine env line) = none ∧
        acceptEntry env line (runDfa line) = .ok entry := by
  unfold parseLogLine at parsed
  split_ifs at parsed
  split at parsed
  · rename_i auth
    exact Or.inl (auth.trans (congrArg some (Except.ok.inj parsed)))
  · rename_i auth
    exact Or.inr ⟨auth, parsed⟩

namespace DocumentedRequest

variable {request : DocumentedRequest}

def front (request : DocumentedRequest) (method url protocol : Bytes) : LineFront where
  ip := request.address
  user := request.user
  time := request.time
  method := method
  url := url
  protocol := protocol
  status := numeral request.status
  bytes := numeral request.bytes
  referer := request.referer

/-- The request has three words and every field stands where the automaton looks for it. -/
def InOrder (request : DocumentedRequest) : Prop :=
  ∃ method url protocol, request.request = method ++ ascii " " ++ url ++ ascii " " ++ protocol ∧
    (request.front method url protocol).InOrder

theorem xff_runDfa (inOrder : request.InOrder) :
    (runDfa request.render).out.xff.bytes request.render = request.body := by
  rcases inOrder with ⟨method, url, protocol, words, front⟩
  have fields := request.escaped
  simp only [mem_cons, not_mem_nil, or_false, forall_eq_or_imp, forall_eq] at fields
  rcases fields with ⟨-, -, -, -, -, userAgent, body⟩
  have rendered : request.render = (request.front method url protocol).render ++
      (request.userAgent ++ chr '"' :: 32 :: chr '"' :: (request.body ++ [chr '"'])) := by
    have literals : ascii "\" \"" = [chr '"', 32, chr '"'] ∧ ascii "\"" = [chr '"'] := by decide
    delta render LineFront.render DocumentedRequest.front
    simp [words, literals]
  rcases reaches_front front rendered with ⟨atUa, out, fromUa, stored, readFront⟩
  rcases reaches_xff fromUa userAgent with ⟨atXff, fromXff, readUa⟩
  rcases reaches_done_xff fromXff body with ⟨atEnd, readXff⟩
  have path := readFront.trans (readUa.trans readXff)
  have result : runDfa request.render = _ :=
    path.run_eq (Or.inr (Or.inl rfl)) (halted_runDfa request.render)
  rw [result]
  exact bytes_of_drop fromXff

theorem body_eq_nil {env : ParserEnv} {entry : LogEntry}
    (parsed : parseLogLine env request.render = .ok entry) : entry.body.bytes request.render = [] := by
  have null : entry.body = .null := by
    rcases parseLogLine_cases parsed with sniffed | ⟨-, accepted⟩
    · exact (body_sniffed sniffed).1
    · exact (body_acceptEntry accepted).1.trans (body_runDfa request)
  rw [null]
  rfl

/-- The body of an accepted line never reaches `LogEntry.body`, so the line is analysed as
documented exactly when there is no body to show and the XFF field is empty. -/
theorem analysed_iff {env : ParserEnv} {entry : LogEntry}
    (parsed : parseLogLine env request.render = .ok entry) :
    (request.Analysed entry ↔ request.shownBody = [] ∧ entry.xff.bytes request.render = []) ∧
      (request.InOrder → (request.Analysed entry ↔
        request.body = [] ∨ request.body = ascii "-" ∧ (sniffedAddress request.render).isSome)) := by
  have general : request.Analysed entry ↔
      request.shownBody = [] ∧ entry.xff.bytes request.render = [] := by
    rw [Analysed, body_eq_nil parsed, eq_comm]
  refine ⟨general, fun inOrder => ?_⟩
  have shown : request.shownBody = [] ↔ request.body = [] ∨ request.body = ascii "-" := by
    unfold shownBody
    split_ifs with dash
    · simp [dash]
    · simp [dash]
  rw [general, shown, ← map_ip_auth env]
  rcases parseLogLine_cases parsed with sniffed | ⟨unsniffed, accepted⟩
  · rw [sniffed, (body_sniffed sniffed).2]
    simp [StrView.bytes]
  · rw [unsniffed, (body_acceptEntry accepted).2, xff_runDfa inOrder]
    constructor
    · rintro ⟨-, empty⟩
      exact Or.inl empty
    · rintro (empty | ⟨-, none⟩)
      · exact ⟨Or.inl empty, empty⟩
      · exact absurd none (by simp)

end DocumentedRequest

def injectionRequest : DocumentedRequest where
  address := ascii "203.0.113.7"
  user := ascii "-"
  time := ascii "15/Jun/2026:10:00:00 +0000"
  request := ascii "POST /search HTTP/1.1"
  status := 200
  bytes := 512
  referer := ascii "-"
  userAgent := ascii "curl/8.5"
  body := ascii "id=1 UNION SELECT"
  escaped := by decide +kernel

def emptyRequest : DocumentedRequest :=
  { injectionRequest with body := [], escaped := by decide +kernel }

theorem analysed_iff_emptyRequest :
    emptyRequest.InOrder ∧
      ∃ entry, parseLogLine plainEnv emptyRequest.render = .ok entry ∧ emptyRequest.Analysed entry := by
  have inOrder : emptyRequest.InOrder := by
    refine ⟨ascii "POST", ascii "/search", ascii "HTTP/1.1", by decide, ?_⟩
    constructor <;> decide +kernel
  refine ⟨inOrder, ?_⟩
  rcases parsed : parseLogLine plainEnv emptyRequest.render with _ | entry
  · have accepts : (parseLogLine plainEnv emptyRequest.render).toOption.isSome := by decide +kernel
    simp [parsed, Except.toOption] at accepts
  · exact ⟨entry, rfl, ((DocumentedRequest.analysed_iff parsed).2 inOrder).mpr (Or.inl rfl)⟩

/-- The injection ends up in the XFF field and the body is empty. -/
theorem injectionRequest_not_analysed :
    (parseLogLine plainEnv injectionRequest.render).toOption.map
        (fun entry => (entry.body.bytes injectionRequest.render,
          entry.xff.bytes injectionRequest.render)) =
      some ([], ascii "id=1 UNION SELECT") ∧
      injectionRequest.shownBody = ascii "id=1 UNION SELECT" := by
  decide +kernel

end LogGuardian
