import LogGuardian.Lib.Loop
import LogGuardian.Parser.Auth

/-!
# The access-log automaton

`parse_log_line` with its positional automaton.
-/

namespace LogGuardian

inductive ParserState where
  | ipStart | ip | skipIdent | skipAuth | bracket | timestamp | method | url | protocol
  | status | bytes | skipRef | ua | xff | body | cookie | host | done | error
  deriving DecidableEq, Repr

def ParserState.rank : ParserState → ℕ
  | ipStart => 0 | ip => 1 | skipIdent => 2 | skipAuth => 3 | bracket => 4 | timestamp => 5
  | method => 6 | url => 7 | protocol => 8 | status => 9 | bytes => 10 | skipRef => 11
  | ua => 12 | xff => 13 | body => 14 | cookie => 15 | host => 16 | done => 17 | error => 18

structure Dfa where
  state : ParserState := .ipStart
  p : ℕ := 0
  tokStart : ℕ := 0
  out : LogEntry := {}
  deriving DecidableEq, Repr

def skipQuoted : Bytes → ℕ
  | [] => 0
  | [byte] => if byte = chr '"' then 0 else 1
  | byte :: next :: rest =>
    if byte = chr '"' then 0
    else if byte = chr '\\' then 2 + skipQuoted rest
    else 1 + skipQuoted (next :: rest)

/-- `is_unescaped_closing_quote`: a quote after an even number of backslashes of the field. -/
def isUnescapedClosingQuote (line : Bytes) (fieldStart p : ℕ) : Bool :=
  byteAt line p = chr '"' &&
    (((line.take p).drop fieldStart).reverse.takeWhile (· = chr '\\')).length % 2 = 0

/-- A field whose value is `-` is empty. -/
def dashAsNull (line : Bytes) (view : StrView) : StrView :=
  if view.bytes line = [chr '-'] then .null else view

/-- The body field: neither `-` nor a value that starts with a slash is taken for a body. -/
def bodyOrNull (line : Bytes) (view : StrView) : StrView :=
  if (view.bytes line).head? = some (chr '/') then .null else dashAsNull line view

namespace Dfa

/-- The text from `tok_start` to `p`. -/
def field (dfa : Dfa) : StrView := .line dfa.tokStart (dfa.p - dfa.tokStart)

/-- The turn of `ST_IP`. -/
def ipTurn (line : Bytes) (dfa : Dfa) : Dfa :=
  if byteAt line dfa.p = 32 ∨ byteAt line dfa.p = 0 then
    { dfa with
      state := .skipIdent
      p := dfa.p + 1
      out := { dfa.out with ip := stripIpv6Brackets line dfa.tokStart (dfa.p - dfa.tokStart) } }
  else { dfa with p := dfa.p + 1 }

/-- The turn of a quoted field: at its closing quote `store` it, then go on to `next` when
another quoted field follows. -/
def quotedTurn (line : Bytes) (dfa : Dfa) (store : LogEntry → StrView → LogEntry)
    (next : ParserState) : Dfa :=
  if isUnescapedClosingQuote line dfa.tokStart dfa.p then
    let out := store dfa.out dfa.field
    let p := skipWhile (· = 32) line (dfa.p + 1)
    if byteAt line p = chr '"' then { state := next, p := p + 1, tokStart := p + 1, out := out }
    else { dfa with state := .done, p := p, out := out }
  else { dfa with p := dfa.p + 1 }

/-- The turn of `ST_SKIP_REF`: over the referer to the user agent. -/
def refererTurn (line : Bytes) (dfa : Dfa) : Dfa :=
  if byteAt line dfa.p = chr '"' then
    let closing := dfa.p + 1 + skipQuoted (line.drop (dfa.p + 1))
    let afterQuote := if byteAt line closing = chr '"' then closing + 1 else closing
    let p := skipWhile (· = 32) line afterQuote
    if byteAt line p = chr '"' then { dfa with state := .ua, p := p + 1, tokStart := p + 1 }
    else { dfa with state := .done, p := p }
  else { dfa with state := .error }

end Dfa

/-- One turn of the loop of `parse_log_line`. -/
def dfaStep (line : Bytes) (dfa : Dfa) : Dfa :=
  let c := byteAt line dfa.p
  let advance := { dfa with p := dfa.p + 1 }
  match dfa.state with
  | .ipStart => Dfa.ipTurn line { dfa with state := .ip, tokStart := dfa.p }
  | .ip => dfa.ipTurn line
  | .skipIdent => { dfa with p := skipWhile (· ≠ 32) line dfa.p + 1, state := .skipAuth }
  | .skipAuth => { dfa with p := skipWhile (· ≠ 32) line dfa.p + 1, state := .bracket }
  | .bracket =>
    if c = chr '[' then { advance with tokStart := dfa.p + 1, state := .timestamp }
    else if c = 32 then advance
    else { dfa with state := .error }
  | .timestamp =>
    if c = chr ']' then
      let p := skipWhile (fun byte => byte = 32 || byte = chr '"') line (dfa.p + 1)
      { state := .method, p := p, tokStart := p,
        out := { dfa.out with ts := parseTimestamp (dfa.field.bytes line) } }
    else advance
  | .method =>
    if c = 32 ∨ c = 0 then
      { state := .url, p := dfa.p + 1, tokStart := dfa.p + 1,
        out := { dfa.out with method := dfa.field } }
    else advance
  | .url =>
    if c = 32 ∨ c = chr '"' ∨ c = 0 then
      { state := .protocol, p := dfa.p + 1, tokStart := dfa.p + 1,
        out := { dfa.out with url := dfa.field } }
    else advance
  | .protocol =>
    if c = chr '"' ∨ c = 32 ∨ c = 0 then
      let p := skipWhile (fun byte => byte = chr '"' || byte = 32) line dfa.p
      { state := .status, p := p, tokStart := p,
        out := { dfa.out with protocol := dfa.field } }
    else advance
  | .status =>
    if isDigit c then
      { advance with
        out := { dfa.out with status := toCInt (dfa.out.status * 10 + digitValue c) } }
    else
      let p := skipWhile (· = 32) line dfa.p
      { dfa with state := .bytes, p := p, tokStart := p }
  | .bytes =>
    if isDigit c then
      { advance with
        out := { dfa.out with bytes := Int.bmod (dfa.out.bytes * 10 + digitValue c) (2 ^ 64) } }
    else
      let p := skipWhile (· = 32) line dfa.p
      if byteAt line p = chr '"' then { dfa with state := .skipRef, p := p }
      else { dfa with state := .done, p := p }
  | .skipRef => dfa.refererTurn line
  | .ua => dfa.quotedTurn line (fun out view => { out with userAgent := view }) .xff
  | .xff => dfa.quotedTurn line (fun out view => { out with xff := view }) .body
  | .body => dfa.quotedTurn line (fun out view => { out with body := bodyOrNull line view }) .cookie
  | .cookie => dfa.quotedTurn line (fun out view => { out with cookie := dashAsNull line view }) .host
  | .host =>
    if isUnescapedClosingQuote line dfa.tokStart dfa.p then
      { advance with state := .done, out := { dfa.out with host := dashAsNull line dfa.field } }
    else advance
  | .done => dfa
  | .error => dfa

/-- The loop condition fails: the automaton has stopped or has run past the end. -/
def Dfa.Halted (line : Bytes) (dfa : Dfa) : Prop :=
  line.length < dfa.p ∨ dfa.state = .done ∨ dfa.state = .error

instance (line : Bytes) : DecidablePred (Dfa.Halted line) := fun dfa => by
  unfold Dfa.Halted
  infer_instance

/-- The `while` loop of `parse_log_line`. -/
def runDfa (line : Bytes) : Dfa :=
  Loop.run (Dfa.Halted line) (dfaStep line) (line.length + 20) {}

theorem le_skipWhile (skip : UInt8 → Bool) (line : Bytes) (position : ℕ) :
    position ≤ skipWhile skip line position := by
  unfold skipWhile
  omega

/-- A turn moves neither `p` nor the automaton back and one of them forward, and the address
is written in the first two states only. -/
structure Dfa.Advances (before after : Dfa) : Prop where
  position : before.p ≤ after.p
  rank : before.state.rank ≤ after.state.rank
  strict : before.p < after.p ∨ before.state.rank < after.state.rank
  ip : 2 ≤ before.state.rank → after.out.ip = before.out.ip

variable {dfa : Dfa} {line : Bytes}

theorem advances_ipTurn (line : Bytes) (state : dfa.state = .ip) :
    dfa.Advances (dfa.ipTurn line) := by
  unfold Dfa.ipTurn
  split <;> constructor <;> simp [ParserState.rank, state]

theorem advances_quotedTurn (line : Bytes) {store : LogEntry → StrView → LogEntry}
    {next : ParserState} (later : dfa.state.rank < next.rank)
    (early : dfa.state.rank < ParserState.done.rank)
    (keepsIp : ∀ out view, (store out view).ip = out.ip) :
    dfa.Advances (dfa.quotedTurn line store next) := by
  have skipped := le_skipWhile (· = 32) line (dfa.p + 1)
  unfold Dfa.quotedTurn
  dsimp only
  split_ifs
  · exact ⟨by dsimp only; omega, later.le, Or.inr later, fun _ => keepsIp _ _⟩
  · exact ⟨by dsimp only; omega, early.le, Or.inr early, fun _ => keepsIp _ _⟩
  · exact ⟨by simp, le_rfl, Or.inl (by simp), fun _ => rfl⟩

theorem advances_refererTurn (line : Bytes) (state : dfa.state = .skipRef) :
    dfa.Advances (dfa.refererTurn line) := by
  have skipped := fun position => le_skipWhile (· = 32) line position
  have skippedQuote := skipped (dfa.p + 1 + skipQuoted (line.drop (dfa.p + 1)))
  have skippedClosed := skipped (dfa.p + 1 + skipQuoted (line.drop (dfa.p + 1)) + 1)
  unfold Dfa.refererTurn
  dsimp only
  split_ifs <;> constructor <;> simp [ParserState.rank, state] <;> omega

theorem advances_dfaStep (running : ¬dfa.Halted line) :
    dfa.Advances (dfaStep line dfa) := by
  rcases dfa with ⟨state, p, tokStart, out⟩
  have skipHere := fun skip => le_skipWhile skip line p
  have skipNext := fun skip => le_skipWhile skip line (p + 1)
  cases state with
  | ipStart =>
    have turn : Dfa.Advances ⟨.ip, p, p, out⟩ _ := advances_ipTurn line rfl
    exact ⟨turn.position, Nat.zero_le _, Or.inr (Nat.lt_of_lt_of_le Nat.zero_lt_one turn.rank),
      fun late => by simp [ParserState.rank] at late⟩
  | ip => exact advances_ipTurn line rfl
  | skipRef => exact advances_refererTurn line rfl
  | ua | xff | body | cookie =>
    unfold dfaStep
    refine advances_quotedTurn line ?_ ?_ fun _ _ => rfl <;> simp [ParserState.rank]
  | done => exact absurd (Or.inr (Or.inl rfl)) running
  | error => exact absurd (Or.inr (Or.inr rfl)) running
  | skipIdent | skipAuth =>
    exact ⟨Nat.le_succ_of_le (skipHere _), by simp [dfaStep, ParserState.rank],
      Or.inl (Nat.lt_succ_of_le (skipHere _)), fun _ => rfl⟩
  | bracket | timestamp | method | url | protocol | status | bytes | host =>
    unfold dfaStep
    dsimp only
    split_ifs <;> constructor <;> simp [ParserState.rank]
    all_goals first | exact skipHere _ | exact Nat.le_of_succ_le (skipNext _)

def Dfa.remaining (line : Bytes) (dfa : Dfa) : ℕ :=
  (line.length + 1 - dfa.p) + (18 - dfa.state.rank)

theorem ParserState.rank_le (state : ParserState) : state.rank ≤ 18 := by
  cases state <;> decide

theorem remaining_dfaStep (running : ¬dfa.Halted line) :
    (dfaStep line dfa).remaining line < dfa.remaining line := by
  have turn := advances_dfaStep running
  have bound := (dfaStep line dfa).state.rank_le
  have inside : dfa.p ≤ line.length := by
    by_contra outside
    exact running (Or.inl (by omega))
  have position := turn.position
  have rank := turn.rank
  have strict := turn.strict
  unfold Dfa.remaining
  omega

theorem halted_runDfa (line : Bytes) : (runDfa line).Halted line :=
  Loop.halted_run (fun _ running => remaining_dfaStep running)
    (by simp only [Dfa.remaining, ParserState.rank]; omega)

inductive ParseError where
  | malformed
  | tampered
  deriving DecidableEq, Repr

def logLineIsTampered (line : Bytes) : Bool :=
  line.any fun byte => byte = 0 || byte = 13 || byte = 0x1b

def xffIpTrusted (env : ParserEnv) (remoteIp : Bytes) : Bool :=
  env.trustXff && !env.proxyCidrs.isEmpty && ipMatchesCidrList remoteIp env.proxyCidrs

/-- `xlen`: the length of the first token of the XFF field. -/
def xffTokenLength (line : Bytes) (xff : StrView) : ℕ :=
  ((xff.bytes line).takeWhile fun byte => byte ≠ chr ',' && byte ≠ 32).length

def xffCandidate (line : Bytes) (xff : StrView) : StrView :=
  match xff with
  | .line start _ => stripIpv6Brackets line start (xffTokenLength line xff)
  | other => other

/-- The last part of `parse_log_line`: a trusted proxy's XFF replaces the address. -/
def applyXff (env : ParserEnv) (line : Bytes) (out : LogEntry) : LogEntry :=
  if 0 < out.xff.len ∧ (out.xff.bytes line).head? ≠ some (chr '-') ∧ out.ip.len ≠ 0 ∧
      xffIpTrusted env (copyInto ipStrLen (out.ip.bytes line)) ∧
      0 < xffTokenLength line out.xff ∧ validToken line (xffCandidate line out.xff) then
    { out with ip := xffCandidate line out.xff }
  else out

def acceptEntry (env : ParserEnv) (line : Bytes) (dfa : Dfa) : Except ParseError LogEntry :=
  let out := dfa.out
  if dfa.state = .error ∨ out.ip.len = 0 ∨ out.ts = 0 ∨ out.method.len = 0 ∨ out.url.len = 0 ∨
      out.status < 100 ∨ 599 < out.status then
    .error .malformed
  else .ok (applyXff env line { out with respBytes := out.bytes })

def parseLogLine (env : ParserEnv) (line : Bytes) : Except ParseError LogEntry :=
  if line = [] then .error .malformed
  else if logLineIsTampered line then .error .tampered
  else
    match parseAuthSshdLine env line <|> parseAuthSudoLine env line with
    | some entry => .ok entry
    | none => acceptEntry env line (runDfa line)

end LogGuardian
