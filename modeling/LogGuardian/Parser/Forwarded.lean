import LogGuardian.Parser.Bounds
import LogGuardian.Parser.Documented

/-!
# The XFF list behind trusted proxies

Trusted proxies append to the XFF header that a client sends.
-/

namespace LogGuardian

open List

def firstEntry (text : Bytes) : Bytes := text.takeWhile fun byte => byte ≠ chr ',' && byte ≠ 32

/-- The text of a token without its brackets, as `strip_ipv6_brackets` leaves it. -/
def unbracket (token : Bytes) : Bytes :=
  if 2 < token.length ∧ token.length - 2 < ipStrLen ∧ token.head? = some (chr '[') ∧
      token.getLast? = some (chr ']') then
    (token.drop 1).take (token.length - 2)
  else token

variable {line : Bytes} {env : ParserEnv}

theorem bytes_stripIpv6Brackets {start len : ℕ} (inside : start + len ≤ line.length) :
    (stripIpv6Brackets line start len).bytes line = unbracket ((line.drop start).take len) := by
  have length : ((line.drop start).take len).length = len := by
    rw [length_take, length_drop]
    omega
  unfold stripIpv6Brackets unbracket
  dsimp only
  rw [length]
  split_ifs
  · rfl
  · rfl

theorem bytes_xffCandidate {view : StrView} (inside : view.Inside line) :
    (xffCandidate line view).bytes line = unbracket (firstEntry (view.bytes line)) := by
  cases view with
  | null => rfl
  | text bytes => exact inside.elim
  | line start len =>
    have bound : start + len ≤ line.length := inside
    have isPrefix : firstEntry ((line.drop start).take len) <+: (line.drop start).take len :=
      takeWhile_prefix _
    have short : (firstEntry ((line.drop start).take len)).length ≤ len :=
      isPrefix.length_le.trans (length_take_le _ _)
    have token : (line.drop start).take (firstEntry ((line.drop start).take len)).length =
        firstEntry ((line.drop start).take len) := by
      have taken := List.prefix_iff_eq_take.mp isPrefix
      rw [take_take, Nat.min_eq_left short] at taken
      exact taken.symm
    have stripped := bytes_stripIpv6Brackets
      (show start + (firstEntry ((line.drop start).take len)).length ≤ line.length by omega)
    rw [token] at stripped
    exact stripped

theorem len_eq_length_bytes {view : StrView} (inside : view.Inside line) :
    view.len = (view.bytes line).length := by
  cases view with
  | null => rfl
  | text bytes => rfl
  | line start len =>
    have bound : start + len ≤ line.length := inside
    rw [StrView.len, StrView.bytes, length_take, length_drop]
    omega

theorem ip_applyXff {out : LogEntry} (trust : env.trustXff = true)
    (matched : ipMatchesCidrList (out.ip.bytes line) env.proxyCidrs = true)
    (inside : out.xff.Inside line) :
    (applyXff env line out).ip.bytes line =
      if (out.xff.bytes line).head? ≠ some (chr '-') ∧
          isValidIp (copyInto ipStrLen (unbracket (firstEntry (out.xff.bytes line)))) then
        unbracket (firstEntry (out.xff.bytes line))
      else out.ip.bytes line := by
  have valid := isValidIp_of_ipMatchesCidrList matched
  have ipLength : out.ip.len ≠ 0 := by
    intro empty
    apply ne_nil_of_isValidIp valid
    cases view : out.ip with
    | null => rfl
    | line start len =>
      rw [view] at empty
      rw [show len = 0 from empty, StrView.bytes, take_zero]
    | text bytes =>
      rw [view] at empty
      exact List.length_eq_zero_iff.mp empty
  have trusted : xffIpTrusted env (copyInto ipStrLen (out.ip.bytes line)) = true := by
    have short := length_le_of_ipMatchesCidrList matched
    rw [copyInto_of_length_lt (by unfold ipStrLen; omega)]
    unfold xffIpTrusted
    rw [trust, matched]
    cases cidrs : env.proxyCidrs with
    | nil => simp [cidrs, ipMatchesCidrList] at matched
    | cons cidr rest => rfl
  have candidate := bytes_xffCandidate inside
  unfold applyXff validToken
  rw [candidate, len_eq_length_bytes inside]
  -- an empty field or token is no address
  have token : xffTokenLength line out.xff = (firstEntry (out.xff.bytes line)).length := rfl
  rw [token]
  by_cases given : firstEntry (out.xff.bytes line) = []
  · rw [given]
    have noAddress : isValidIp (copyInto ipStrLen (unbracket [])) = false := by decide
    rw [noAddress]
    simp
  · have field : out.xff.bytes line ≠ [] := by
      intro empty
      rw [empty] at given
      exact given rfl
    have tokenLength := List.length_pos_iff.mpr given
    have fieldLength := List.length_pos_iff.mpr field
    simp only [fieldLength, tokenLength, trusted, true_and, ipLength, ne_eq, not_false_eq_true]
    split_ifs
    · exact candidate
    · rfl

structure ProxySuffix (env : ParserEnv) where
  client : Bytes
  hops : List (ℕ × Bytes)
  valid : isValidIp client = true
  outside : ipMatchesCidrList client env.proxyCidrs = false
  trusted : ∀ hop ∈ hops, ipMatchesCidrList hop.2 env.proxyCidrs = true

namespace ProxySuffix

variable (suffix : ProxySuffix env)

def text : Bytes :=
  suffix.client ++
    suffix.hops.flatMap fun hop => chr ',' :: (List.replicate hop.1 32 ++ hop.2)

/-- The client's own text `sent` leaves the client in front of the list. -/
def KeepsClient (sent : Bytes) : Prop :=
  sent.head? ≠ some (chr '-') ∧ unbracket (firstEntry (sent ++ suffix.client)) = suffix.client

instance (sent : Bytes) : Decidable (suffix.KeepsClient sent) :=
  inferInstanceAs (Decidable (_ ∧ _))

theorem firstEntry_append_text (sent : Bytes) :
    firstEntry (sent ++ suffix.text) = firstEntry (sent ++ suffix.client) := by
  unfold text
  rw [← append_assoc]
  rcases suffix.hops with _ | ⟨hop, hops⟩
  · simp
  · unfold firstEntry
    rw [flatMap_cons, takeWhile_append]
    split_ifs with whole
    · have entry := ( takeWhile_prefix _).eq_of_length whole
      rw [entry]
      simp
    · rfl

theorem head?_client : suffix.client.head? ≠ some (chr '-') := by
  intro dash
  have address := isAddressByte_of_isValidIp suffix.valid (List.mem_of_head? dash)
  exact absurd address (by decide)

theorem head?_append_text (sent : Bytes) :
    (sent ++ suffix.text).head? ≠ some (chr '-') ↔ sent.head? ≠ some (chr '-') := by
  rcases sent with _ | ⟨byte, rest⟩
  · have client := suffix.head?_client
    rcases shape : suffix.client with _ | ⟨byte, rest⟩
    · exact absurd shape (ne_nil_of_isValidIp suffix.valid)
    · simpa [text, shape] using client
  · simp

end ProxySuffix

def xffField (line : Bytes) : Bytes := (runDfa line).out.xff.bytes line

/-- An accepted line of a trusted proxy goes to the client exactly when a sniffing path takes
the client from it, or none takes an address and the client's own text keeps the client in
front. -/
def NamesClient (suffix : ProxySuffix env) (line sent : Bytes) : Prop :=
  sniffedAddress line = some suffix.client ∨
    sniffedAddress line = none ∧ suffix.KeepsClient sent

instance (suffix : ProxySuffix env) (line sent : Bytes) :
    Decidable (NamesClient suffix line sent) :=
  inferInstanceAs (Decidable (_ ∨ _))

theorem untampered_of_parseLogLine {entry : LogEntry}
    (parsed : parseLogLine env line = .ok entry) : logLineIsTampered line = false := by
  unfold parseLogLine at parsed
  split_ifs at parsed with empty tampered
  exact Bool.eq_false_iff.mpr tampered

theorem ip_parseLogLine_of_trusted {entry : LogEntry} (trust : env.trustXff = true)
    (matched : ipMatchesCidrList (firstToken line) env.proxyCidrs = true)
    (parsed : parseLogLine env line = .ok entry) :
    entry.ip.bytes line = (sniffedAddress line).getD
      (if (xffField line).head? ≠ some (chr '-') ∧
          isValidIp (copyInto ipStrLen (unbracket (firstEntry (xffField line)))) then
        unbracket (firstEntry (xffField line))
      else firstToken line) := by
  have sniffed := map_ip_auth env line
  rcases parseLogLine_cases parsed with auth | ⟨auth, accepted⟩
  · rw [← sniffed, auth, Option.map_some, Option.getD_some]
  · rw [← sniffed, auth, Option.map_none]
    have stored : (runDfa line).out.ip.bytes line = firstToken line := by
      rw [ip_runDfa (untampered_of_parseLogLine parsed),
        stripIpv6Brackets_of_valid (isValidIp_of_ipMatchesCidrList matched)]
      simp [StrView.bytes, take_length_firstToken]
    have inside : (runDfa line).out.xff.Inside line :=
      (ordered_runDfa line).inside _ (by simp [LogEntry.views])
    unfold acceptEntry at accepted
    dsimp only at accepted
    split_ifs at accepted
    rw [← stored] at matched ⊢
    rw [← Except.ok.inj accepted]
    have replaced := @ip_applyXff line env
      { (runDfa line).out with respBytes := (runDfa line).out.bytes } trust matched inside
    exact replaced

theorem ip_eq_client_iff {suffix : ProxySuffix env} {sent : Bytes} {entry : LogEntry}
    (trust : env.trustXff = true)
    (matched : ipMatchesCidrList (firstToken line) env.proxyCidrs = true)
    (list : xffField line = sent ++ suffix.text)
    (parsed : parseLogLine env line = .ok entry) :
    entry.ip.bytes line = suffix.client ↔ NamesClient suffix line sent := by
  rw [ip_parseLogLine_of_trusted trust matched parsed, list, suffix.firstEntry_append_text]
  have head := suffix.head?_append_text sent
  unfold NamesClient ProxySuffix.KeepsClient
  rcases sniffedAddress line with _ | sniffed
  · simp only [Option.getD_none, reduceCtorEq, true_and, false_or]
    split_ifs with replaced
    · exact ⟨fun same => ⟨head.mp replaced.1, same⟩, fun kept => kept.2⟩
    · refine iff_of_false ?_ ?_
      · -- the proxy is trusted and the client is not
        intro same
        rw [same, suffix.outside] at matched
        exact Bool.false_ne_true matched
      · rintro ⟨undashed, same⟩
        apply replaced
        refine ⟨head.mpr undashed, ?_⟩
        have short := length_le_of_isValidIp suffix.valid
        rw [same, copyInto_of_length_lt (by unfold ipStrLen; omega)]
        exact suffix.valid
  · simp

/-- Two lines whose lists end alike are both attributed to the client exactly when neither the
client's own text nor a sniffing path puts another address in front. -/
theorem forwarded_to_client_iff {suffix : ProxySuffix env} {left right : Bytes}
    {leftSent rightSent : Bytes} {leftEntry rightEntry : LogEntry}
    (trust : env.trustXff = true)
    (leftProxy : ipMatchesCidrList (firstToken left) env.proxyCidrs = true)
    (rightProxy : ipMatchesCidrList (firstToken right) env.proxyCidrs = true)
    (leftList : xffField left = leftSent ++ suffix.text)
    (rightList : xffField right = rightSent ++ suffix.text)
    (leftParsed : parseLogLine env left = .ok leftEntry)
    (rightParsed : parseLogLine env right = .ok rightEntry) :
    (leftEntry.ip.bytes left = suffix.client ∧ rightEntry.ip.bytes right = suffix.client) ↔
      NamesClient suffix left leftSent ∧ NamesClient suffix right rightSent := by
  rw [ip_eq_client_iff trust leftProxy leftList leftParsed,
    ip_eq_client_iff trust rightProxy rightList rightParsed]

/-- `TRUST_XFF` on for the proxies in 10.0.0.0/8. -/
def proxyEnv : ParserEnv := ⟨true, [ascii "10.0.0.0/8"], fun _ => 1781517600⟩

def oneHop : ProxySuffix proxyEnv where
  client := ascii "203.0.113.9"
  hops := [(1, ascii "10.0.0.2")]
  valid := by decide
  outside := by decide
  trusted := by decide

/-- The line that the server writes for a request through `oneHop`. -/
def proxiedLine (sent : Bytes) : Bytes :=
  ascii "10.0.0.1 - - [15/Jun/2026:10:00:00 +0000] \"GET / HTTP/1.1\" 200 12 \"-\" \"curl/8.5\" \"" ++
    (sent ++ oneHop.text) ++ ascii "\""

theorem forwarded_to_client_oneHop :
    ∃ leftEntry rightEntry,
      parseLogLine proxyEnv (proxiedLine []) = .ok leftEntry ∧
        parseLogLine proxyEnv (proxiedLine (ascii "203.0.113.9, ")) = .ok rightEntry ∧
        leftEntry.ip.bytes (proxiedLine []) = oneHop.client ∧
        rightEntry.ip.bytes (proxiedLine (ascii "203.0.113.9, ")) = oneHop.client := by
  have parses : ∀ sent ∈ [[], ascii "203.0.113.9, "],
      (parseLogLine proxyEnv (proxiedLine sent)).toOption.isSome := by
    decide +kernel
  rcases left : parseLogLine proxyEnv (proxiedLine []) with _ | leftEntry
  · simpa [left, Except.toOption] using parses [] (by simp)
  rcases right : parseLogLine proxyEnv (proxiedLine (ascii "203.0.113.9, ")) with _ | rightEntry
  · simpa [right, Except.toOption] using parses (ascii "203.0.113.9, ") (by simp)
  have leftList : xffField (proxiedLine []) = [] ++ oneHop.text := by decide +kernel
  have rightList : xffField (proxiedLine (ascii "203.0.113.9, ")) =
      ascii "203.0.113.9, " ++ oneHop.text := by
    decide +kernel
  refine ⟨leftEntry, rightEntry, rfl, rfl, ?_⟩
  apply (forwarded_to_client_iff rfl (by decide +kernel) (by decide +kernel) leftList rightList
    left right).mpr
  decide +kernel

/-- A client that sends an XFF header of its own is taken for the address in it. -/
theorem forwarded_spoofed_by_client :
    ipMatchesCidrList (firstToken (proxiedLine (ascii "8.8.8.8, "))) proxyEnv.proxyCidrs = true ∧
      xffField (proxiedLine (ascii "8.8.8.8, ")) = ascii "8.8.8.8, " ++ oneHop.text ∧
      (parseLogLine proxyEnv (proxiedLine [])).toOption.map (·.ip.bytes (proxiedLine [])) =
        some oneHop.client ∧
      (parseLogLine proxyEnv (proxiedLine (ascii "8.8.8.8, "))).toOption.map
          (·.ip.bytes (proxiedLine (ascii "8.8.8.8, "))) = some (ascii "8.8.8.8") := by
  decide +kernel

end LogGuardian
