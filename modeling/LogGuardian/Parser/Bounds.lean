import LogGuardian.Lib.Cursor
import LogGuardian.Parser.Attribution

/-!
# Reads of the parser
-/

namespace LogGuardian

open List

namespace Checked

/-- `*p`. -/
def deref (line : Bytes) (p : ℕ) : Option UInt8 := (line)[p]?

/-- `(p < end) ? *p : '\0'`, which is also the guarded test `p < end && *p == '"'`. -/
def peek (line : Bytes) (p : ℕ) : Option UInt8 := if p < line.length then deref line p else some 0

/-- `while (p < end && skip(*p)) p++;` -/
def skipWhile (skip : UInt8 → Bool) (line : Bytes) (stop p : ℕ) : Option ℕ :=
  (Cursor.scan line stop skip (fun unread _ => unread) line.length () p).map Prod.snd

/-- The loop of `ST_SKIP_REF` over the referer. -/
def skipQuoted (line : Bytes) : ℕ → ℕ → Option ℕ
  | 0, p => some p
  | fuel + 1, p =>
    if p < line.length then do
      let byte ← deref line p
      if byte = chr '"' then some p
      else if byte = chr '\\' ∧ p + 1 < line.length then skipQuoted line fuel (p + 2)
      else skipQuoted line fuel (p + 1)
    else some p

/-- The backward loop of `is_unescaped_closing_quote`, from the byte before a position on. -/
def backslashes (line : Bytes) (fieldStart : ℕ) : ℕ → Option ℕ
  | 0 => some 0
  | q + 1 =>
    if fieldStart ≤ q then do
      let byte ← deref line q
      if byte = chr '\\' then (backslashes line fieldStart q).map (· + 1) else some 0
    else some 0

def isUnescapedClosingQuote (line : Bytes) (fieldStart p : ℕ) : Option Bool :=
  if p < fieldStart then some false
  else do
    let byte ← deref line p
    if byte = chr '"' then
      let count ← backslashes line fieldStart p
      some (count % 2 = 0)
    else some false

/-- The test of the quoted states: `c == '"' && is_unescaped_closing_quote(tok_start, p)`. -/
def closes (line : Bytes) (dfa : Dfa) : Option Bool := do
  let c ← peek line dfa.p
  if c = chr '"' then isUnescapedClosingQuote line dfa.tokStart dfa.p else some false

/-- `memcpy` out of the line. -/
def copyRange (line : Bytes) (start len : ℕ) : Option Bytes :=
  if start + len ≤ line.length then some ((line.drop start).take len) else none

def stripIpv6Brackets (line : Bytes) (start len : ℕ) : Option StrView :=
  if 2 ≤ len then do
    let first ← deref line start
    if first = chr '[' then
      let last ← deref line (start + len - 1)
      if last = chr ']' then
        if len - 2 = 0 ∨ ipStrLen ≤ len - 2 then some (.line start len)
        else (copyRange line (start + 1) (len - 2)).map .text
      else some (.line start len)
    else some (.line start len)
  else some (.line start len)

/-- The `-` test on a stored field. -/
def dashAsNull (line : Bytes) (start len : ℕ) : Option StrView :=
  if len = 1 then (deref line start).map fun byte => if byte = chr '-' then .null else .line start len
  else some (.line start len)

def bodyOrNull (line : Bytes) (start len : ℕ) : Option StrView := do
  let view ← dashAsNull line start len
  if view ≠ .null ∧ 0 < len then
    (deref line start).map fun byte => if byte = chr '/' then .null else view
  else some view

/-- A loop that accumulates decimal digits into a C `int`. -/
def scanInt (line : Bytes) (stop p : ℕ) : Option (ℤ × ℕ) :=
  Cursor.scan line stop isDigit (fun value digit => toCInt (value * 10 + digitValue digit))
    line.length 0 p

/-- `if (p >= end || *p != byte) return 0; p++;` -/
def expectThen (line : Bytes) (stop : ℕ) (byte : UInt8) (p : ℕ) (next : ℕ → Option ℤ) : Option ℤ :=
  if p < stop then do
    let head ← deref line p
    if head = byte then next (p + 1) else some 0
  else some 0

def scanMonth (line : Bytes) (stop p : ℕ) : Option (Bytes × ℕ) :=
  Cursor.scan line (min stop (p + 3)) (fun byte => byte ≠ 0 && byte ≠ chr '/')
    (fun month byte => month ++ [byte]) line.length [] p

def zoneOffset (line : Bytes) (stop p : ℕ) : Option ℤ := do
  let p ← skipWhile (fun byte => byte = 32 || byte = 9) line stop p
  if p + 5 ≤ stop then
    let sign ← deref line p
    if sign = chr '+' ∨ sign = chr '-' then
      let h₁ ← deref line (p + 1)
      let h₂ ← deref line (p + 2)
      let m₁ ← deref line (p + 3)
      let m₂ ← deref line (p + 4)
      if [h₁, h₂, m₁, m₂].all isDigit then
        let seconds : ℤ := decimalValue [h₁, h₂] * 3600 + decimalValue [m₁, m₂] * 60
        some (if sign = chr '+' then seconds else -seconds)
      else some 0
    else some 0
  else some 0

def parseTimestamp (line : Bytes) (start len : ℕ) : Option ℤ :=
  let stop := start + len
  if len < 20 then some 0
  else do
    let (mday, p) ← scanInt line stop start
    expectThen line stop (chr '/') p fun p => do
    let (month, p) ← scanMonth line stop p
    expectThen line stop (chr '/') p fun p =>
    match monthNames.findIdx? (· == month.map toLower) with
    | none => some 0
    | some mon => do
      let (year, p) ← scanInt line stop p
      expectThen line stop (chr ':') p fun p => do
      let (hour, p) ← scanInt line stop p
      expectThen line stop (chr ':') p fun p => do
      let (min, p) ← scanInt line stop p
      expectThen line stop (chr ':') p fun p => do
      let (sec, p) ← scanInt line stop p
      let utc := timegm ⟨mday, mon, year - 1900, hour, min, sec⟩
      if utc ≤ 0 then some 0
      else (zoneOffset line stop p).map (utc - ·)

def ipTurn (line : Bytes) (dfa : Dfa) : Option Dfa := do
  let c ← peek line dfa.p
  if c = 32 ∨ c = 0 then
    let ip ← stripIpv6Brackets line dfa.tokStart (dfa.p - dfa.tokStart)
    some { dfa with state := .skipIdent, p := dfa.p + 1, out := { dfa.out with ip := ip } }
  else some { dfa with p := dfa.p + 1 }

def quotedTurn (line : Bytes) (dfa : Dfa) (store : LogEntry → ℕ → ℕ → Option LogEntry)
    (next : ParserState) : Option Dfa := do
  if ← closes line dfa then
    let out ← store dfa.out dfa.tokStart (dfa.p - dfa.tokStart)
    let p ← skipWhile (· = 32) line line.length (dfa.p + 1)
    let c ← peek line p
    if c = chr '"' then some { state := next, p := p + 1, tokStart := p + 1, out := out }
    else some { dfa with state := .done, p := p, out := out }
  else some { dfa with p := dfa.p + 1 }

def refererTurn (line : Bytes) (dfa : Dfa) : Option Dfa := do
  let c ← peek line dfa.p
  if c = chr '"' then
    let closing ← skipQuoted line line.length (dfa.p + 1)
    let quote ← peek line closing
    let p ← skipWhile (· = 32) line line.length
      (if quote = chr '"' then closing + 1 else closing)
    let c ← peek line p
    if c = chr '"' then some { dfa with state := .ua, p := p + 1, tokStart := p + 1 }
    else some { dfa with state := .done, p := p }
  else some { dfa with state := .error }

/-- One turn of the loop of `parse_log_line`. -/
def dfaStep (line : Bytes) (dfa : Dfa) : Option Dfa := do
  let c ← peek line dfa.p
  let advance := { dfa with p := dfa.p + 1 }
  match dfa.state with
  | .ipStart => ipTurn line { dfa with state := .ip, tokStart := dfa.p }
  | .ip => ipTurn line dfa
  | .skipIdent =>
    let p ← skipWhile (· ≠ 32) line line.length dfa.p
    some { dfa with p := p + 1, state := .skipAuth }
  | .skipAuth =>
    let p ← skipWhile (· ≠ 32) line line.length dfa.p
    some { dfa with p := p + 1, state := .bracket }
  | .bracket =>
    if c = chr '[' then some { advance with tokStart := dfa.p + 1, state := .timestamp }
    else if c = 32 then some advance
    else some { dfa with state := .error }
  | .timestamp =>
    if c = chr ']' then
      let ts ← parseTimestamp line dfa.tokStart (dfa.p - dfa.tokStart)
      let p ← skipWhile (fun byte => byte = 32 || byte = chr '"') line line.length (dfa.p + 1)
      some { state := .method, p := p, tokStart := p, out := { dfa.out with ts := ts } }
    else some advance
  | .method =>
    if c = 32 ∨ c = 0 then
      some { state := .url, p := dfa.p + 1, tokStart := dfa.p + 1,
             out := { dfa.out with method := dfa.field } }
    else some advance
  | .url =>
    if c = 32 ∨ c = chr '"' ∨ c = 0 then
      some { state := .protocol, p := dfa.p + 1, tokStart := dfa.p + 1,
             out := { dfa.out with url := dfa.field } }
    else some advance
  | .protocol =>
    if c = chr '"' ∨ c = 32 ∨ c = 0 then
      let p ← skipWhile (fun byte => byte = chr '"' || byte = 32) line line.length dfa.p
      some { state := .status, p := p, tokStart := p,
             out := { dfa.out with protocol := dfa.field } }
    else some advance
  | .status =>
    if isDigit c then
      some { advance with
             out := { dfa.out with status := toCInt (dfa.out.status * 10 + digitValue c) } }
    else
      let p ← skipWhile (· = 32) line line.length dfa.p
      some { dfa with state := .bytes, p := p, tokStart := p }
  | .bytes =>
    if isDigit c then
      some { advance with
             out := { dfa.out with
                      bytes := Int.bmod (dfa.out.bytes * 10 + digitValue c) (2 ^ 64) } }
    else
      let p ← skipWhile (· = 32) line line.length dfa.p
      let c ← peek line p
      if c = chr '"' then some { dfa with state := .skipRef, p := p }
      else some { dfa with state := .done, p := p }
  | .skipRef => refererTurn line dfa
  | .ua =>
    quotedTurn line dfa (fun out start len => some { out with userAgent := .line start len }) .xff
  | .xff =>
    quotedTurn line dfa (fun out start len => some { out with xff := .line start len }) .body
  | .body =>
    quotedTurn line dfa
      (fun out start len => (bodyOrNull line start len).map fun view => { out with body := view })
      .cookie
  | .cookie =>
    quotedTurn line dfa
      (fun out start len => (dashAsNull line start len).map fun view => { out with cookie := view })
      .host
  | .host =>
    if ← closes line dfa then
      let view ← dashAsNull line dfa.tokStart (dfa.p - dfa.tokStart)
      some { advance with state := .done, out := { dfa.out with host := view } }
    else some advance
  | .done => some dfa
  | .error => some dfa

/-- The `while` loop of `parse_log_line`: no result when a turn reads outside the line or the
loop has not ended after the given number of turns. -/
def runDfa (line : Bytes) (turns : ℕ) : Option Dfa :=
  Loop.tryRun (Dfa.Halted line) (dfaStep line) turns {}

end Checked

section Reads

variable {line : Bytes} {p : ℕ}

theorem deref_eq (inside : p < line.length) : Checked.deref line p = some (byteAt line p) := by
  rw [Checked.deref, byteAt, List.getElem?_eq_getElem inside, getD_eq_getElem _ _ inside]

theorem drop_eq_byteAt_cons (inside : p < line.length) :
    line.drop p = byteAt line p :: line.drop (p + 1) := by
  rw [drop_eq_getElem_cons inside, byteAt, getD_eq_getElem _ _ inside]

@[simp]
theorem peek_eq (line : Bytes) (p : ℕ) : Checked.peek line p = some (byteAt line p) := by
  unfold Checked.peek
  split
  · apply deref_eq
    assumption
  · rw [byteAt, getD_eq_default]
    omega

theorem rest_length (line : Bytes) (p : ℕ) : Cursor.rest line line.length p = line.drop p := by
  rw [Cursor.rest, take_length]

theorem skipWhile_stop {stop : ℕ} (inside : stop ≤ line.length) (skip : UInt8 → Bool) (p : ℕ) :
    Checked.skipWhile skip line stop p =
      some (p + ((Cursor.rest line stop p).takeWhile skip).length) := by
  unfold Checked.skipWhile
  rw [Cursor.scan_eq inside skip _ (by omega), Option.map_some]

@[simp]
theorem skipWhile_eq (skip : UInt8 → Bool) (line : Bytes) (p : ℕ) :
    Checked.skipWhile skip line line.length p = some (skipWhile skip line p) := by
  rw [skipWhile_stop le_rfl, rest_length, skipWhile]

theorem skipQuoted_eq {fuel : ℕ} (enough : line.length - p ≤ fuel) :
    Checked.skipQuoted line fuel p = some (p + skipQuoted (line.drop p)) := by
  induction fuel generalizing p with
  | zero =>
    rw [drop_of_length_le (by omega)]
    rfl
  | succ fuel ih =>
    unfold Checked.skipQuoted
    by_cases inside : p < line.length
    · have tail := ih (p := p + 1) (by omega)
      have pair := ih (p := p + 2) (by omega)
      rw [deref_eq inside, drop_eq_byteAt_cons inside, tail, pair]
      by_cases next : p + 1 < line.length
      · rw [drop_eq_byteAt_cons next]
        simp only [Option.bind_eq_bind, Option.bind_some, skipQuoted, next, and_true]
        split_ifs <;> simp [Nat.add_assoc]
      · have gone : line.drop (p + 1) = [] := drop_of_length_le (by omega)
        rw [gone]
        simp only [Option.bind_eq_bind, Option.bind_some, skipQuoted, next, and_false, if_false]
        split_ifs <;> simp
    · rw [if_neg inside, drop_of_length_le (by omega)]
      rfl

theorem backslashes_eq (fieldStart : ℕ) (inside : p ≤ line.length) :
    Checked.backslashes line fieldStart p =
      some (((line.take p).drop fieldStart).reverse.takeWhile (· = chr '\\')).length := by
  induction p with
  | zero => simp [Checked.backslashes]
  | succ q ih =>
    unfold Checked.backslashes
    split
    · have field : (line.take (q + 1)).drop fieldStart =
          (line.take q).drop fieldStart ++ [byteAt line q] := by
        rw [take_succ_eq_append_getElem (by omega), drop_append_of_le_length,
          byteAt, getD_eq_getElem]
        simpa using by omega
      rw [deref_eq (by omega), ih (by omega), field]
      by_cases backslash : byteAt line q = chr '\\' <;> simp [backslash]
    · rw [drop_of_length_le]
      · simp
      · simp only [length_take]
        omega

theorem isUnescapedClosingQuote_eq {fieldStart : ℕ} (start : fieldStart ≤ p)
    (inside : p < line.length) :
    Checked.isUnescapedClosingQuote line fieldStart p =
      some (isUnescapedClosingQuote line fieldStart p) := by
  unfold Checked.isUnescapedClosingQuote isUnescapedClosingQuote
  rw [if_neg (by omega), deref_eq inside, backslashes_eq _ inside.le]
  by_cases quote : byteAt line p = chr '"' <;> simp [quote]

theorem closes_eq {dfa : Dfa} (start : dfa.tokStart ≤ dfa.p) :
    Checked.closes line dfa = some (isUnescapedClosingQuote line dfa.tokStart dfa.p) := by
  unfold Checked.closes
  by_cases quote : byteAt line dfa.p = chr '"'
  · have inside : dfa.p < line.length := by
      by_contra outside
      rw [byteAt, getD_eq_default _ _ (by omega)] at quote
      exact absurd quote (by decide)
    simp [quote, isUnescapedClosingQuote_eq start inside]
  · simp [quote, isUnescapedClosingQuote]

variable {start len : ℕ} {byte : UInt8}

theorem head?_range (inside : start + len ≤ line.length) (nonempty : 0 < len) :
    ((line.drop start).take len).head? = some (byteAt line start) := by
  rw [head?_take, if_neg (by omega), head?_drop]
  exact deref_eq (by omega)

theorem getLast?_range (inside : start + len ≤ line.length) (nonempty : 0 < len) :
    ((line.drop start).take len).getLast? = some (byteAt line (start + len - 1)) := by
  have length : ((line.drop start).take len).length = len := by
    rw [length_take, length_drop]
    omega
  have position : start + (len - 1) = start + len - 1 := by omega
  rw [getLast?_eq_getElem?, length, List.getElem?_take_of_lt (by omega),
    List.getElem?_drop, position]
  exact deref_eq (by omega)

theorem stripIpv6Brackets_eq (inside : start + len ≤ line.length) :
    Checked.stripIpv6Brackets line start len = some (stripIpv6Brackets line start len) := by
  have inner : (((line.drop start).take len).drop 1).take (len - 2) =
      (line.drop (start + 1)).take (len - 2) := by
    have counts : min (len - 2) (len - 1) = len - 2 := by omega
    rw [drop_take, drop_drop, take_take, counts]
  unfold Checked.stripIpv6Brackets stripIpv6Brackets
  dsimp only
  by_cases two : 2 ≤ len
  · have copied : Checked.copyRange line (start + 1) (len - 2) =
        some ((line.drop (start + 1)).take (len - 2)) := if_pos (by omega)
    rw [if_pos two, deref_eq (by omega), deref_eq (by omega), head?_range inside (by omega),
      getLast?_range inside (by omega), copied, inner]
    by_cases opening : byteAt line start = chr '['
    · by_cases closing : byteAt line (start + len - 1) = chr ']'
      · have fits : (2 < len ∧ len - 2 < ipStrLen) ↔ ¬(len - 2 = 0 ∨ ipStrLen ≤ len - 2) := by omega
        by_cases keeps : len - 2 = 0 ∨ ipStrLen ≤ len - 2 <;>
          simp only [Option.bind_eq_bind, Option.bind_some, Option.map_some, opening, closing,
            fits, keeps, if_true, if_false, not_true, not_false_eq_true, and_true]
      · simp [closing]
    · simp [opening]
  · rw [if_neg two, if_neg (by omega)]

theorem bytes_eq_singleton_iff (inside : start + len ≤ line.length) :
    (StrView.line start len).bytes line = [byte] ↔ len = 1 ∧ byteAt line start = byte := by
  rw [StrView.bytes]
  constructor
  · intro single
    have length := congrArg length single
    simp only [length_take, length_drop, length_singleton] at length
    have head := head?_range inside (by omega)
    rw [single] at head
    exact ⟨by omega, (Option.some.inj head).symm⟩
  · rintro ⟨rfl, rfl⟩
    rw [drop_eq_byteAt_cons (by omega)]
    rfl

theorem dashAsNull_eq (inside : start + len ≤ line.length) :
    Checked.dashAsNull line start len = some (dashAsNull line (.line start len)) := by
  unfold Checked.dashAsNull dashAsNull
  simp only [bytes_eq_singleton_iff inside]
  split
  · rename_i single
    rw [deref_eq (by omega)]
    simp [single]
  · rename_i other
    simp [other]

theorem bodyOrNull_eq (inside : start + len ≤ line.length) :
    Checked.bodyOrNull line start len = some (bodyOrNull line (.line start len)) := by
  unfold Checked.bodyOrNull bodyOrNull
  rw [dashAsNull_eq inside]
  by_cases nonempty : 0 < len
  · rw [deref_eq (by omega), StrView.bytes, head?_range inside nonempty]
    simp only [nonempty]
    by_cases dash : dashAsNull line (.line start len) = .null <;> simp [dash]
  · have empty : len = 0 := by omega
    subst empty
    simp [StrView.bytes]

variable {stop : ℕ}

theorem scanInt_eq (inside : stop ≤ line.length) (p : ℕ) :
    ∃ next, Checked.scanInt line stop p = some ((scanInt (Cursor.rest line stop p)).1, next) ∧
      Cursor.rest line stop next = (scanInt (Cursor.rest line stop p)).2 := by
  refine ⟨_, Cursor.scan_eq inside _ _ (by omega) _, ?_⟩
  apply Cursor.rest_add_length_takeWhile

theorem expectThen_eq (inside : stop ≤ line.length) {next : ℕ → Option ℤ}
    {continuation : Bytes → Option ℤ}
    (same : next (p + 1) = some ((continuation (Cursor.rest line stop (p + 1))).getD 0)) :
    Checked.expectThen line stop byte p next =
      some (((expect byte (Cursor.rest line stop p)).bind continuation).getD 0) := by
  unfold Checked.expectThen
  by_cases before : p < stop
  · rcases Cursor.rest_eq_cons inside before with ⟨head, read, split⟩
    rw [if_pos before, Checked.deref, read, split, expect]
    by_cases expected : head = byte <;> simp [expected, same]
  · rw [if_neg before, Cursor.rest_eq_nil (by omega)]
    rfl

theorem scanMonth_eq (inside : stop ≤ line.length) (p : ℕ) :
    ∃ next, Checked.scanMonth line stop p =
        some (((Cursor.rest line stop p).take 3).takeWhile fun byte => byte ≠ 0 && byte ≠ chr '/',
          next) ∧
      Cursor.rest line stop next = (Cursor.rest line stop p).drop
        (((Cursor.rest line stop p).take 3).takeWhile
          fun byte => byte ≠ 0 && byte ≠ chr '/').length := by
  unfold Checked.scanMonth
  rw [Cursor.scan_eq (by omega) _ _ (by omega), Cursor.rest_min]
  refine ⟨_, congrArg some (Prod.ext ?_ rfl), Cursor.rest_add _ _ _ _⟩
  simp [← flatMap_def]

theorem zoneOffset_eq (inside : stop ≤ line.length) (p : ℕ) :
    Checked.zoneOffset line stop p = some (zoneOffset (Cursor.rest line stop p)) := by
  unfold Checked.zoneOffset zoneOffset
  rw [skipWhile_stop inside, ← Cursor.rest_add_length_takeWhile]
  generalize p + _ = q
  simp only [Option.bind_eq_bind, Option.bind_some]
  by_cases room : q + 5 ≤ stop
  · rcases Cursor.rest_eq_cons inside (p := q) (by omega) with ⟨sign, readSign, atSign⟩
    rcases Cursor.rest_eq_cons inside (p := q + 1) (by omega) with ⟨h₁, readH₁, atH₁⟩
    rcases Cursor.rest_eq_cons inside (p := q + 2) (by omega) with ⟨h₂, readH₂, atH₂⟩
    rcases Cursor.rest_eq_cons inside (p := q + 3) (by omega) with ⟨m₁, readM₁, atM₁⟩
    rcases Cursor.rest_eq_cons inside (p := q + 4) (by omega) with ⟨m₂, readM₂, atM₂⟩
    rw [atSign, atH₁, atH₂, atM₁, atM₂]
    simp only [Checked.deref, readSign, readH₁, readH₂, readM₁, readM₂, Option.bind_some]
    split_ifs <;> first | rfl | tauto
  · have short : (Cursor.rest line stop q).length < 5 := by
      rw [Cursor.length_rest inside]
      omega
    rw [if_neg room]
    split
    · rename_i full
      rw [full] at short
      simp only [length_cons] at short
      omega
    · rfl

theorem parseTimestamp_eq (inside : start + len ≤ line.length) :
    Checked.parseTimestamp line start len =
      some (parseTimestamp ((line.drop start).take len)) := by
  have text : (line.drop start).take len = Cursor.rest line (start + len) start := by
    rw [Cursor.rest, drop_take, Nat.add_sub_cancel_left]
  unfold Checked.parseTimestamp parseTimestamp
  rw [text, Cursor.length_rest inside, Nat.add_sub_cancel_left]
  split
  · rfl
  rcases scanInt_eq inside start with ⟨afterDay, day, atDay⟩
  simp only [day, Option.bind_eq_bind, Option.bind_some, ← atDay]
  apply expectThen_eq inside
  rcases scanMonth_eq inside (afterDay + 1) with ⟨afterMonth, month, atMonth⟩
  simp only [month, Option.bind_some, ← atMonth]
  apply expectThen_eq inside
  rcases named : monthNames.findIdx? _ with _ | mon
  · rfl
  rcases scanInt_eq inside (afterMonth + 1) with ⟨afterYear, year, atYear⟩
  simp only [year, Option.bind_some, ← atYear]
  apply expectThen_eq inside
  rcases scanInt_eq inside (afterYear + 1) with ⟨afterHour, hour, atHour⟩
  simp only [hour, Option.bind_some, ← atHour]
  apply expectThen_eq inside
  rcases scanInt_eq inside (afterHour + 1) with ⟨afterMin, min, atMin⟩
  simp only [min, Option.bind_some, ← atMin]
  apply expectThen_eq inside
  rcases scanInt_eq inside (afterMin + 1) with ⟨afterSec, sec, atSec⟩
  simp only [sec, Option.bind_some, ← atSec, zoneOffset_eq inside]
  split <;> rfl

variable {dfa : Dfa}

theorem ipTurn_eq (start : dfa.tokStart ≤ dfa.p) (inside : dfa.p ≤ line.length) :
    Checked.ipTurn line dfa = some (dfa.ipTurn line) := by
  unfold Checked.ipTurn Dfa.ipTurn
  rw [peek_eq, stripIpv6Brackets_eq (by omega)]
  simp only [Option.bind_eq_bind, Option.bind_some]
  split <;> rfl

theorem quotedTurn_eq {checkedStore : LogEntry → ℕ → ℕ → Option LogEntry}
    {store : LogEntry → StrView → LogEntry} {next : ParserState} (start : dfa.tokStart ≤ dfa.p)
    (same : checkedStore dfa.out dfa.tokStart (dfa.p - dfa.tokStart) =
      some (store dfa.out dfa.field)) :
    Checked.quotedTurn line dfa checkedStore next = some (dfa.quotedTurn line store next) := by
  unfold Checked.quotedTurn Dfa.quotedTurn
  simp only [closes_eq start, same, skipWhile_eq, peek_eq, Option.bind_eq_bind, Option.bind_some]
  split_ifs <;> rfl

theorem refererTurn_eq (line : Bytes) (dfa : Dfa) :
    Checked.refererTurn line dfa = some (dfa.refererTurn line) := by
  unfold Checked.refererTurn Dfa.refererTurn
  simp only [peek_eq, skipQuoted_eq (show line.length - (dfa.p + 1) ≤ line.length by omega),
    skipWhile_eq, Option.bind_eq_bind, Option.bind_some]
  split_ifs <;> rfl

theorem dfaStep_eq (start : dfa.tokStart ≤ dfa.p) (inside : dfa.p ≤ line.length) :
    Checked.dfaStep line dfa = some (dfaStep line dfa) := by
  have field : dfa.tokStart + (dfa.p - dfa.tokStart) ≤ line.length := by omega
  rcases dfa with ⟨state, p, tokStart, out⟩
  unfold Checked.dfaStep dfaStep
  rw [peek_eq, Option.bind_eq_bind, Option.bind_some]
  cases state with
  | ipStart => exact ipTurn_eq le_rfl inside
  | ip => exact ipTurn_eq start inside
  | skipRef => exact refererTurn_eq line _
  | ua | xff => exact quotedTurn_eq start rfl
  | body =>
    apply quotedTurn_eq start
    rw [bodyOrNull_eq field]
    rfl
  | cookie =>
    apply quotedTurn_eq start
    rw [dashAsNull_eq field]
    rfl
  | host =>
    rw [closes_eq start, dashAsNull_eq field]
    simp only [Option.bind_eq_bind, Option.bind_some]
    split <;> rfl
  | timestamp =>
    rw [parseTimestamp_eq field]
    simp only [skipWhile_eq]
    split <;> rfl
  | _ =>
    simp only [skipWhile_eq, peek_eq, Option.bind_eq_bind, Option.bind_some]
    try split_ifs <;> rfl

end Reads

namespace StrView

/-- Null, or a range of the line. -/
def Inside (line : Bytes) : StrView → Prop
  | null => True
  | .line start length => start + length ≤ line.length
  | text _ => False

def Before : StrView → StrView → Prop
  | .line start length, .line later _ => start + length ≤ later
  | _, _ => True

/-- The range ends at the position or before it. -/
def EndsBy (position : ℕ) : StrView → Prop
  | .line start length => start + length ≤ position
  | _ => True

theorem before_null (view : StrView) : view.Before null := by
  cases view <;> trivial

theorem null_before (view : StrView) : null.Before view := trivial

theorem EndsBy.mono {view : StrView} {position later : ℕ} (ends : view.EndsBy position)
    (le : position ≤ later) : view.EndsBy later := by
  cases view with
  | line start length => exact Nat.le_trans ends le
  | _ => trivial

theorem EndsBy.before {view : StrView} {position length : ℕ} (ends : view.EndsBy position) :
    view.Before (.line position length) := by
  cases view with
  | line start other => exact ends
  | _ => trivial

end StrView

def LogEntry.views (entry : LogEntry) : List StrView :=
  [entry.method, entry.url, entry.protocol, entry.userAgent, entry.xff, entry.body, entry.cookie,
    entry.host]

def ParserState.stored : ParserState → ℕ
  | ipStart | ip | skipIdent | skipAuth | bracket | timestamp | method => 0
  | url => 1
  | protocol => 2
  | status | bytes | skipRef | ua => 3
  | xff => 4
  | body => 5
  | cookie => 6
  | host => 7
  | done | error => 8

/-- The stored views are ranges of the line in increasing order, and the token that is being
read starts after them. -/
structure Dfa.Ordered (line : Bytes) (dfa : Dfa) : Prop where
  tokStart : dfa.tokStart ≤ dfa.p
  inside : ∀ view ∈ dfa.out.views, view.Inside line
  increasing : dfa.out.views.Pairwise StrView.Before
  ended : dfa.state.stored < 8 → ∀ view ∈ dfa.out.views, view.EndsBy dfa.tokStart
  pending : dfa.out.views.drop dfa.state.stored = List.replicate (8 - dfa.state.stored) .null

namespace Dfa.Ordered

variable {line : Bytes} {state next : ParserState} {p tokStart later token : ℕ} {out stored : LogEntry}

theorem of_kept (ordered : Ordered line ⟨state, p, tokStart, out⟩) (running : state.stored < 8)
    (views : stored.views = out.views) (rank : state.stored ≤ next.stored)
    (moved : tokStart ≤ token) (position : token ≤ later) :
    Ordered line ⟨next, later, token, stored⟩ := by
  refine ⟨position, ?_, ?_, ?_, ?_⟩
  · rw [views]
    exact ordered.inside
  · rw [views]
    exact ordered.increasing
  · intro _ view member
    rw [views] at member
    exact (ordered.ended running view member).mono moved
  · have split : next.stored = state.stored + (next.stored - state.stored) := by omega
    have pending : out.views.drop state.stored = _ := ordered.pending
    rw [views, split, ← drop_drop, pending, drop_replicate, Nat.sub_sub]

theorem of_stored (ordered : Ordered line ⟨state, p, tokStart, out⟩) (running : state.stored < 8)
    (inside : p ≤ line.length) {view : StrView}
    (cut : view = .line tokStart (p - tokStart) ∨ view = .null)
    (views : stored.views = out.views.set state.stored view) (rank : state.stored < next.stored)
    (moved : next.stored < 8 → p ≤ token) (position : token ≤ later) :
    Ordered line ⟨next, later, token, stored⟩ := by
  have start : tokStart ≤ p := ordered.tokStart
  have ended : ∀ early ∈ out.views, early.EndsBy tokStart := ordered.ended running
  have pending : out.views.drop state.stored = _ := ordered.pending
  have viewInside : view.Inside line := by
    rcases cut with rfl | rfl
    · change tokStart + (p - tokStart) ≤ line.length
      omega
    · trivial
  have viewEnds : view.EndsBy p := by
    rcases cut with rfl | rfl
    · change tokStart + (p - tokStart) ≤ p
      omega
    · trivial
  have viewAfter : ∀ early ∈ out.views, early.Before view := by
    intro early member
    rcases cut with rfl | rfl
    · exact (ended early member).before
    · exact early.before_null
  have split : stored.views =
      out.views.take state.stored ++ view :: replicate (7 - state.stored) .null := by
    have inList : state.stored < out.views.length := running
    rw [views, set_eq_take_append_cons_drop, if_pos inList, ← drop_drop,
      pending, drop_replicate, Nat.sub_sub, Nat.add_comm, ← Nat.sub_sub]
  have members : ∀ kept ∈ stored.views, kept ∈ out.views ∨ kept = view := by
    rw [views]
    exact fun _ => mem_or_eq_of_mem_set
  refine ⟨position, ?_, ?_, ?_, ?_⟩
  · intro kept member
    rcases members kept member with early | rfl
    · exact ordered.inside kept early
    · exact viewInside
  · rw [split, pairwise_append, pairwise_cons]
    refine ⟨ordered.increasing.sublist (take_sublist _ _), ⟨?_, ?_⟩, ?_⟩
    · intro late member
      rw [eq_of_mem_replicate member]
      exact view.before_null
    · exact List.pairwise_replicate.mpr (Or.inr (StrView.null_before _))
    · intro early earlyMember late lateMember
      rcases List.mem_cons.mp lateMember with rfl | null
      · exact viewAfter early (mem_of_mem_take earlyMember)
      · rw [eq_of_mem_replicate null]
        exact early.before_null
  · intro unfinished kept member
    have after := moved unfinished
    rcases members kept member with early | rfl
    · exact (ended kept early).mono (start.trans after)
    · exact viewEnds.mono after
  · have rest : next.stored = state.stored + (next.stored - state.stored) := by omega
    rw [views, drop_set_of_lt rank, rest, ← drop_drop, pending, drop_replicate,
      Nat.sub_sub]

end Dfa.Ordered

theorem dashAsNull_cases (line : Bytes) (view : StrView) :
    dashAsNull line view = view ∨ dashAsNull line view = .null := by
  unfold dashAsNull
  split
  · exact Or.inr rfl
  · exact Or.inl rfl

theorem bodyOrNull_cases (line : Bytes) (view : StrView) :
    bodyOrNull line view = view ∨ bodyOrNull line view = .null := by
  unfold bodyOrNull
  split
  · exact Or.inr rfl
  · exact dashAsNull_cases line view

variable {line : Bytes} {p tokStart : ℕ} {out entry : LogEntry} {dfa : Dfa} {env : ParserEnv}

theorem ordered_ipTurn (ordered : Dfa.Ordered line ⟨.ip, p, tokStart, out⟩) :
    (Dfa.ipTurn line ⟨.ip, p, tokStart, out⟩).Ordered line := by
  have start : tokStart ≤ p := ordered.tokStart
  unfold Dfa.ipTurn
  split
  · exact ordered.of_kept (by decide) rfl (by decide) le_rfl (Nat.le_succ_of_le start)
  · exact ordered.of_kept (by decide) rfl le_rfl le_rfl (Nat.le_succ_of_le start)

theorem ordered_quotedTurn {state next : ParserState} {store : LogEntry → StrView → LogEntry}
    {view : StrView} (ordered : Dfa.Ordered line ⟨state, p, tokStart, out⟩)
    (running : state.stored < 8) (inside : p ≤ line.length)
    (cut : view = .line tokStart (p - tokStart) ∨ view = .null)
    (views : (store out (.line tokStart (p - tokStart))).views = out.views.set state.stored view)
    (later : state.stored < next.stored) :
    (Dfa.quotedTurn line ⟨state, p, tokStart, out⟩ store next).Ordered line := by
  have start : tokStart ≤ p := ordered.tokStart
  have skipped := le_skipWhile (· = 32) line (p + 1)
  unfold Dfa.quotedTurn
  dsimp only
  split_ifs
  · exact ordered.of_stored running inside cut views later (fun _ => by omega) le_rfl
  · exact ordered.of_stored running inside cut views running
      (fun more => absurd more (Nat.lt_irrefl 8)) (by omega)
  · exact ordered.of_kept running rfl le_rfl le_rfl (Nat.le_succ_of_le start)

theorem ordered_refererTurn (ordered : Dfa.Ordered line ⟨.skipRef, p, tokStart, out⟩) :
    (Dfa.refererTurn line ⟨.skipRef, p, tokStart, out⟩).Ordered line := by
  have start : tokStart ≤ p := ordered.tokStart
  have turn : Dfa.Advances ⟨.skipRef, p, tokStart, out⟩ _ := advances_refererTurn line rfl
  have moved := turn.position
  unfold Dfa.refererTurn at moved ⊢
  dsimp only at moved ⊢
  split_ifs at moved ⊢ with quote closed opened opened
  · exact ordered.of_kept (by decide) rfl (by decide) (start.trans moved) le_rfl
  · exact ordered.of_kept (by decide) rfl (by decide) le_rfl (start.trans moved)
  · exact ordered.of_kept (by decide) rfl (by decide) (start.trans moved) le_rfl
  · exact ordered.of_kept (by decide) rfl (by decide) le_rfl (start.trans moved)
  · exact ordered.of_kept (by decide) rfl (by decide) le_rfl start

theorem ordered_dfaStep (running : ¬dfa.Halted line) (ordered : dfa.Ordered line) :
    (dfaStep line dfa).Ordered line := by
  have inside : dfa.p ≤ line.length := by
    by_contra outside
    exact running (Or.inl (by omega))
  have start := ordered.tokStart
  have moved := (advances_dfaStep running).position
  rcases dfa with ⟨state, p, tokStart, out⟩
  cases state with
  | done => exact absurd (Or.inr (Or.inl rfl)) running
  | error => exact absurd (Or.inr (Or.inr rfl)) running
  | ipStart =>
    apply ordered_ipTurn
    exact ordered.of_kept (by decide) rfl (by decide) start le_rfl
  | ip => exact ordered_ipTurn ordered
  | skipRef => exact ordered_refererTurn ordered
  | ua | xff =>
    unfold dfaStep
    exact ordered_quotedTurn ordered (by decide) inside (Or.inl rfl) rfl (by decide)
  | body =>
    unfold dfaStep
    exact ordered_quotedTurn ordered (by decide) inside (bodyOrNull_cases line _) rfl (by decide)
  | cookie =>
    unfold dfaStep
    exact ordered_quotedTurn ordered (by decide) inside (dashAsNull_cases line _) rfl (by decide)
  | host =>
    unfold dfaStep at moved ⊢
    dsimp only at moved ⊢
    split_ifs at moved ⊢
    · exact ordered.of_stored (by decide) inside (dashAsNull_cases _ _) rfl (by decide)
        (fun more => absurd more (Nat.lt_irrefl 8)) (start.trans moved)
    · exact ordered.of_kept (by decide) rfl le_rfl le_rfl (start.trans moved)
  | method | url | protocol =>
    unfold dfaStep at moved ⊢
    dsimp only at moved ⊢
    split_ifs at moved ⊢
    · exact ordered.of_stored (by decide) inside (Or.inl rfl) rfl (by decide)
        (fun _ => moved) le_rfl
    · exact ordered.of_kept (by decide) rfl le_rfl le_rfl (start.trans moved)
  | skipIdent | skipAuth =>
    exact ordered.of_kept (by decide) rfl (by decide) le_rfl (start.trans moved)
  | bracket =>
    unfold dfaStep at moved ⊢
    dsimp only at moved ⊢
    split_ifs at moved ⊢
    · exact ordered.of_kept (by decide) rfl (by decide) (start.trans moved) le_rfl
    · exact ordered.of_kept (by decide) rfl (by decide) le_rfl (start.trans moved)
    · exact ordered.of_kept (by decide) rfl (by decide) le_rfl start
  | timestamp =>
    unfold dfaStep at moved ⊢
    dsimp only at moved ⊢
    split_ifs at moved ⊢
    · exact ordered.of_kept (by decide) rfl (by decide) (start.trans moved) le_rfl
    · exact ordered.of_kept (by decide) rfl (by decide) le_rfl (start.trans moved)
  | status =>
    unfold dfaStep at moved ⊢
    dsimp only at moved ⊢
    split_ifs at moved ⊢
    · exact ordered.of_kept (by decide) rfl (by decide) le_rfl (start.trans moved)
    · exact ordered.of_kept (by decide) rfl (by decide) (start.trans moved) le_rfl
  | bytes =>
    unfold dfaStep at moved ⊢
    dsimp only at moved ⊢
    split_ifs at moved ⊢ <;>
      exact ordered.of_kept (by decide) rfl (by decide) le_rfl (start.trans moved)

theorem ordered_initial (line : Bytes) : Dfa.Ordered line {} := by
  constructor <;> simp [LogEntry.views, StrView.Inside, StrView.EndsBy, StrView.Before,
    ParserState.stored]

theorem ordered_runDfa (line : Bytes) : (runDfa line).Ordered line :=
  Loop.run_invariant (Dfa.Ordered line) (fun _ => ordered_dfaStep) _ (ordered_initial line)

theorem runDfa_eq (line : Bytes) : Checked.runDfa line (line.length + 20) = some (runDfa line) := by
  apply Loop.tryRun_eq_run (Dfa.Ordered line)
  · intro dfa running ordered
    apply dfaStep_eq ordered.tokStart
    by_contra outside
    exact running (Or.inl (by omega))
  · exact fun _ => ordered_dfaStep
  · exact fun _ => remaining_dfaStep
  · exact ordered_initial line
  · simp only [Dfa.remaining]
    omega

theorem views_applyXff (env : ParserEnv) (line : Bytes) (out : LogEntry) :
    (applyXff env line out).views = out.views := by
  unfold applyXff
  split <;> rfl

theorem views_acceptEntry (accepted : acceptEntry env line dfa = .ok entry) :
    entry.views = dfa.out.views := by
  unfold acceptEntry at accepted
  dsimp only at accepted
  split at accepted
  · simp at accepted
  · simp only [Except.ok.injEq] at accepted
    rw [← accepted, views_applyXff]
    rfl

theorem acceptEntry_of_parseLogLine
    (unsniffed : (parseAuthSshdLine env line <|> parseAuthSudoLine env line) = none)
    (parsed : parseLogLine env line = .ok entry) :
    acceptEntry env line (runDfa line) = .ok entry := by
  unfold parseLogLine at parsed
  rw [unsniffed] at parsed
  split_ifs at parsed
  exact parsed

/-- On every line the loop ends without reading outside it, and an accepted entry's views are
ranges of the line in increasing order. -/
theorem parseLogLine_reads_inside (line : Bytes) :
    ∃ dfa, Checked.runDfa line (line.length + 20) = some dfa ∧ dfa = runDfa line ∧
      dfa.Halted line ∧
      ∀ env entry, (parseAuthSshdLine env line <|> parseAuthSudoLine env line) = none →
        parseLogLine env line = .ok entry →
        (∀ view ∈ entry.views, view.Inside line) ∧ entry.views.Pairwise StrView.Before := by
  refine ⟨runDfa line, runDfa_eq line, rfl, halted_runDfa line, ?_⟩
  intro env entry unsniffed parsed
  have ordered := ordered_runDfa line
  rw [views_acceptEntry (acceptEntry_of_parseLogLine unsniffed parsed)]
  exact ⟨ordered.inside, ordered.increasing⟩

def fullLine : Bytes :=
  ascii ("203.0.113.7 - - [15/Jun/2026:10:00:00 +0000] \"POST /login HTTP/1.1\" 200 12 \"-\" " ++
    "\"curl/8.5\" \"-\" \"user=a\" \"k=v\" \"example.org\"")

theorem parseLogLine_reads_inside_fullLine :
    ∃ entry, (parseAuthSshdLine plainEnv fullLine <|> parseAuthSudoLine plainEnv fullLine) = none ∧
      parseLogLine plainEnv fullLine = .ok entry ∧
      (∀ view ∈ entry.views, view.Inside fullLine) ∧ entry.views.Pairwise StrView.Before := by
  have unsniffed : (parseAuthSshdLine plainEnv fullLine <|> parseAuthSudoLine plainEnv fullLine) =
      none := by
    decide +kernel
  rcases parsed : parseLogLine plainEnv fullLine with _ | entry
  · have accepts : (parseLogLine plainEnv fullLine).toOption.isSome := by decide +kernel
    simp [parsed, Except.toOption] at accepts
  · rcases parseLogLine_reads_inside fullLine with ⟨dfa, -, -, -, views⟩
    exact ⟨entry, unsniffed, rfl, views plainEnv entry unsniffed parsed⟩

end LogGuardian
