import LogGuardian.Parser.Dfa

/-!
# Attribution of a request to an address

Which address `parse_log_line` puts into `LogEntry.ip`.
-/

namespace LogGuardian

open List

/-- The first token of a line, `$remote_addr` in an access log. -/
def firstToken (line : Bytes) : Bytes := line.takeWhile (· ≠ 32)

theorem length_firstToken_le (line : Bytes) : (firstToken line).length ≤ line.length :=
  ( takeWhile_prefix _).length_le

theorem take_length_firstToken (line : Bytes) :
    line.take (firstToken line).length = firstToken line :=
  (List.prefix_iff_eq_take.mp ( takeWhile_prefix _)).symm

variable {line : Bytes} {p : ℕ} {dfa : Dfa} {env : ParserEnv} {entry : LogEntry}

theorem byteAt_ne_of_lt_firstToken (inside : p < (firstToken line).length) :
    byteAt line p ≠ 32 := by
  have token : byteAt line p = (firstToken line)[p] := by
    have bound := length_firstToken_le line
    unfold byteAt
    rw [getD_eq_getElem _ _ (by omega)]
    exact (List.IsPrefix.getElem ( takeWhile_prefix _) inside).symm
  rw [token]
  simpa using mem_takeWhile_imp (getElem_mem inside)

theorem byteAt_length_firstToken (line : Bytes) :
    byteAt line (firstToken line).length = 32 ∨ byteAt line (firstToken line).length = 0 := by
  unfold byteAt firstToken
  induction line with
  | nil => exact Or.inr rfl
  | cons byte rest ih =>
    by_cases space : byte = 32
    · simp [space]
    · simpa [space] using ih

theorem byteAt_ne_zero (untampered : logLineIsTampered line = false) (inside : p < line.length) :
    byteAt line p ≠ 0 := by
  intro zero
  unfold byteAt at zero
  rw [getD_eq_getElem _ _ inside] at zero
  simp only [logLineIsTampered, any_eq_false] at untampered
  have clean := untampered _ (getElem_mem inside)
  simp [zero] at clean

/-- The loop reads the first token, or has stored it. -/
def TokenPhase (line : Bytes) (dfa : Dfa) : Prop :=
  (dfa.state = .ipStart ∧ dfa.p = 0) ∨
    (dfa.state = .ip ∧ dfa.tokStart = 0 ∧ dfa.p ≤ (firstToken line).length) ∨
    (2 ≤ dfa.state.rank ∧
      dfa.out.ip = stripIpv6Brackets line 0 (firstToken line).length)

theorem tokenPhase_ipTurn (untampered : logLineIsTampered line = false) (state : dfa.state = .ip)
    (start : dfa.tokStart = 0) (inside : dfa.p ≤ (firstToken line).length) :
    TokenPhase line (dfa.ipTurn line) := by
  have bound := length_firstToken_le line
  unfold Dfa.ipTurn
  split
  · rename_i delimiter
    have atEnd : dfa.p = (firstToken line).length := by
      by_contra other
      rcases delimiter with space | zero
      · exact byteAt_ne_of_lt_firstToken (by omega) space
      · exact byteAt_ne_zero untampered (by omega) zero
    refine Or.inr (Or.inr ⟨le_rfl, ?_⟩)
    simp [start, atEnd]
  · rename_i running
    have before : dfa.p ≠ (firstToken line).length := by
      intro atEnd
      rw [atEnd] at running
      exact running (byteAt_length_firstToken line)
    exact Or.inr (Or.inl ⟨state, start, by dsimp only; omega⟩)

theorem tokenPhase_dfaStep (untampered : logLineIsTampered line = false)
    (running : ¬dfa.Halted line) (phase : TokenPhase line dfa) :
    TokenPhase line (dfaStep line dfa) := by
  rcases phase with ⟨state, atStart⟩ | ⟨state, start, inside⟩ | ⟨late, stored⟩
  · unfold dfaStep
    simp only [state]
    exact tokenPhase_ipTurn untampered rfl atStart (by simp [atStart])
  · unfold dfaStep
    simp only [state]
    exact tokenPhase_ipTurn untampered state start inside
  · have turn := advances_dfaStep running
    exact Or.inr (Or.inr ⟨late.trans turn.rank, (turn.ip late).trans stored⟩)

theorem ip_runDfa (untampered : logLineIsTampered line = false) :
    (runDfa line).out.ip = stripIpv6Brackets line 0 (firstToken line).length := by
  have phase : TokenPhase line (runDfa line) :=
    Loop.run_invariant (TokenPhase line) (fun _ running => tokenPhase_dfaStep untampered running) _
      (Or.inl ⟨rfl, rfl⟩)
  have bound := length_firstToken_le line
  have halted := halted_runDfa line
  rcases phase with ⟨state, atStart⟩ | ⟨state, -, inside⟩ | ⟨-, stored⟩
  · rcases halted with past | stopped
    · omega
    · simp [state] at stopped
  · rcases halted with past | stopped
    · omega
    · simp [state] at stopped
  · exact stored

theorem stripIpv6Brackets_of_valid (valid : isValidIp (firstToken line) = true) :
    stripIpv6Brackets line 0 (firstToken line).length = .line 0 (firstToken line).length := by
  unfold stripIpv6Brackets
  simp only [drop_zero, take_length_firstToken]
  rw [if_neg]
  rintro ⟨-, -, opening, -⟩
  rcases token : firstToken line with _ | ⟨byte, rest⟩
  · simp [token] at opening
  · simp only [token, head?_cons, Option.some.injEq] at opening
    rw [token, opening, isValidIp_cons_bracket] at valid
    exact Bool.false_ne_true valid

/-- The peer may not name another client: `TRUST_XFF` is off or no trusted proxy network
contains it. -/
def Untrusted (env : ParserEnv) (address : Bytes) : Prop :=
  env.trustXff = true → ipMatchesCidrList address env.proxyCidrs = false

theorem xffIpTrusted_copyInto {address : Bytes} (untrusted : Untrusted env address) :
    xffIpTrusted env (copyInto ipStrLen address) = false := by
  by_contra accepted
  simp only [xffIpTrusted, Bool.not_eq_false, Bool.and_eq_true] at accepted
  rcases accepted with ⟨⟨trust, -⟩, hit⟩
  -- a text that the buffer truncates is too long to match a network
  by_cases fits : address.length < ipStrLen
  · rw [copyInto_of_length_lt fits, untrusted trust] at hit
    exact Bool.false_ne_true hit
  · have short := length_le_of_ipMatchesCidrList hit
    simp only [copyInto, length_take, ipStrLen] at short fits
    omega

theorem applyXff_of_untrusted {out : LogEntry} (untrusted : Untrusted env (out.ip.bytes line)) :
    applyXff env line out = out := by
  unfold applyXff
  rw [if_neg]
  rintro ⟨-, -, -, trusted, -⟩
  rw [xffIpTrusted_copyInto untrusted] at trusted
  exact Bool.false_ne_true trusted

theorem ip_acceptEntry (untampered : logLineIsTampered line = false)
    (valid : isValidIp (firstToken line) = true) (untrusted : Untrusted env (firstToken line))
    (accepted : acceptEntry env line (runDfa line) = .ok entry) :
    entry.ip.bytes line = firstToken line := by
  have stored : (runDfa line).out.ip.bytes line = firstToken line := by
    rw [ip_runDfa untampered, stripIpv6Brackets_of_valid valid]
    simp [StrView.bytes, take_length_firstToken]
  unfold acceptEntry at accepted
  dsimp only at accepted
  split at accepted
  · simp at accepted
  · rw [applyXff_of_untrusted (by simpa [stored] using untrusted)] at accepted
    simp only [Except.ok.injEq] at accepted
    rw [← accepted]
    exact stored

theorem map_ip_auth (env : ParserEnv) (line : Bytes) :
    (parseAuthSshdLine env line <|> parseAuthSudoLine env line).map (·.ip.bytes line) =
      sniffedAddress line := by
  unfold parseAuthSshdLine parseAuthSudoLine sniffedAddress
  by_cases sshd : hasLit line (ascii "sshd[") = true
  · rcases client : extractSshdClientIp line with _ | ip
    · by_cases sudoLine : hasLit line (ascii "sudo[") = true <;>
        simp [sudoLine, Function.comp_def]
    · simp [sshd]
  · by_cases sudoLine : hasLit line (ascii "sudo[") = true <;>
      simp [sshd, sudoLine, Function.comp_def]

theorem ip_parseLogLine (valid : isValidIp (firstToken line) = true)
    (untrusted : Untrusted env (firstToken line)) (parsed : parseLogLine env line = .ok entry) :
    entry.ip.bytes line = (sniffedAddress line).getD (firstToken line) := by
  unfold parseLogLine at parsed
  split at parsed
  · simp at parsed
  split at parsed
  · simp at parsed
  · rename_i untampered
    rw [← map_ip_auth env]
    split at parsed
    · rename_i auth
      simp only [Except.ok.injEq] at parsed
      rw [auth, parsed, Option.map_some, Option.getD_some]
    · rename_i auth
      rw [auth, Option.map_none]
      exact ip_acceptEntry (Bool.eq_false_iff.mpr untampered) valid untrusted parsed

/-- No sniffing path takes an address other than `address` from the line. -/
def SniffsNoOther (line address : Bytes) : Prop :=
  ∀ sniffed, sniffedAddress line = some sniffed → sniffed = address

instance (line address : Bytes) : Decidable (SniffsNoOther line address) :=
  inferInstanceAs (Decidable (∀ sniffed ∈ sniffedAddress line, sniffed = address))

theorem ip_parseLogLine_eq_iff (valid : isValidIp (firstToken line) = true)
    (untrusted : Untrusted env (firstToken line)) (parsed : parseLogLine env line = .ok entry) :
    entry.ip.bytes line = firstToken line ↔ SniffsNoOther line (firstToken line) := by
  rw [ip_parseLogLine valid untrusted parsed]
  unfold SniffsNoOther
  rcases sniffedAddress line with _ | sniffed <;> simp

def accessLine (userAgent : Bytes) : Bytes :=
  ascii "203.0.113.7 - - [15/Jun/2026:10:00:00 +0000] \"GET / HTTP/1.1\" 200 12 \"-\" \"" ++
    userAgent ++ ascii "\""

/-- `TRUST_XFF` off and a fixed clock. -/
def plainEnv : ParserEnv := ⟨false, [], fun _ => 1781517600⟩

end LogGuardian
