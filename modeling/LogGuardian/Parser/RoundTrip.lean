import LogGuardian.Parser.Timestamp

/-!
# Round trip of access-log records
-/

namespace LogGuardian

open List

/-- A number as `%d` prints it. -/
def numeral (number : ℕ) : Bytes := ascii (toString number)

theorem numeral_eq (number : ℕ) :
    numeral number = if number < 10 then [UInt8.ofNat (48 + number)]
      else numeral (number / 10) ++ [UInt8.ofNat (48 + number % 10)] := by
  have digit : ∀ value < 10, (Nat.digitChar value).toNat.toUInt8 = UInt8.ofNat (48 + value) := by
    decide
  have chars : ∀ number : ℕ, (toString number).toList = Nat.toDigits 10 number := by
    intro number
    simp [toString]
  unfold numeral ascii
  rw [chars, Nat.toDigits_eq_if (by omega)]
  split
  · rename_i small
    simp [digit number small]
  · simp [digit (number % 10) (Nat.mod_lt _ (by omega))]

variable {number : ℕ} {byte : UInt8} {line : Bytes} {view : StrView}

theorem length_numeral_le {digits : ℕ} (positive : 0 < digits) (small : number < 10 ^ digits) :
    (numeral number).length ≤ digits := by
  induction digits generalizing number with
  | zero => exact absurd positive (Nat.lt_irrefl 0)
  | succ digits ih =>
    rw [numeral_eq]
    split
    · exact positive
    · have shorter : number / 10 < 10 ^ digits := by
        omega
      have nonzero : 0 < digits := by
        by_contra none
        rw [Nat.eq_zero_of_not_pos none] at shorter
        omega
      rw [length_append, length_singleton]
      exact Nat.succ_le_succ (ih nonzero shorter)

theorem isDigit_of_mem_numeral (member : byte ∈ numeral number) :
    isDigit byte = true := by
  have digit : ∀ value < 10, isDigit (UInt8.ofNat (48 + value)) = true := by decide
  induction number using Nat.strong_induction_on with
  | _ number ih =>
    rw [numeral_eq] at member
    split at member
    · rename_i small
      rw [List.mem_singleton.mp member]
      exact digit number small
    · rcases List.mem_append.mp member with early | last
      · exact ih (number / 10) (by omega) early
      · rw [List.mem_singleton.mp last]
        exact digit _ (Nat.mod_lt _ (by omega))

theorem decimalValue_numeral (number : ℕ) : decimalValue (numeral number) = number := by
  have digit : ∀ value < 10, digitValue (UInt8.ofNat (48 + value)) = value := by decide
  induction number using Nat.strong_induction_on with
  | _ number ih =>
    rw [numeral_eq]
    split
    · rename_i small
      rw [decimalValue, foldl_cons, foldl_nil, digit number small]
      omega
    · have before := ih (number / 10) (by omega)
      unfold decimalValue at before ⊢
      rw [foldl_append, before]
      simp only [foldl_cons, foldl_nil, digit (number % 10) (Nat.mod_lt _ (by omega))]
      omega

theorem numeral_ne_nil (number : ℕ) : numeral number ≠ [] := by
  rw [numeral_eq]
  split <;> simp

structure AccessRecord where
  ip : Bytes
  user : Bytes
  time : TimeText
  method : Bytes
  url : Bytes
  protocol : Bytes
  status : ℕ
  bytes : ℕ
  referer : Bytes
  userAgent : Bytes
  xff : Bytes
  body : Bytes
  cookie : Bytes
  host : Bytes
  deriving DecidableEq, Repr

namespace AccessRecord

variable (record : AccessRecord)

/-- `ip - user [ts] "method url protocol" status bytes` and the six quoted fields. -/
def render : Bytes :=
  record.ip ++ ascii " - " ++ record.user ++ ascii " [" ++ record.time.text ++ ascii "] \"" ++
    record.method ++ ascii " " ++ record.url ++ ascii " " ++ record.protocol ++ ascii "\" " ++
    numeral record.status ++ ascii " " ++ numeral record.bytes ++ ascii " \"" ++
    record.referer ++ ascii "\" \"" ++ record.userAgent ++ ascii "\" \"" ++
    record.xff ++ ascii "\" \"" ++ record.body ++ ascii "\" \"" ++
    record.cookie ++ ascii "\" \"" ++ record.host ++ ascii "\""

/-- The fields the format can carry. -/
structure WellFormed : Prop where
  words : ∀ word ∈ [record.ip, record.user, record.method, record.url, record.protocol],
    word ≠ [] ∧ ∀ byte ∈ word, byte ≠ 32 ∧ byte ≠ chr '"'
  unbracketed : ¬(record.ip.head? = some (chr '[') ∧ record.ip.getLast? = some (chr ']'))
  time : record.time.Valid
  timeText : chr ']' ∉ record.time.text
  status : 100 ≤ record.status ∧ record.status ≤ 599
  bytes : record.bytes < 2 ^ 63
  escaped : ∀ field ∈ [record.referer, record.userAgent, record.xff, record.body, record.cookie,
    record.host], Escaped field
  body : record.body ≠ ascii "-" ∧ record.body.head? ≠ some (chr '/')
  cookie : record.cookie ≠ ascii "-"
  host : record.host ≠ ascii "-"
  untampered : logLineIsTampered record.render = false
  noSshd : hasLit record.render (ascii "sshd[") = false
  noSudo : hasLit record.render (ascii "sudo[") = false

/-- The views and numbers of an entry are those of the record. -/
structure ReadBack (entry : LogEntry) : Prop where
  ip : entry.ip.bytes record.render = record.ip
  method : entry.method.bytes record.render = record.method
  url : entry.url.bytes record.render = record.url
  protocol : entry.protocol.bytes record.render = record.protocol
  userAgent : entry.userAgent.bytes record.render = record.userAgent
  xff : entry.xff.bytes record.render = record.xff
  body : entry.body.bytes record.render = record.body
  cookie : entry.cookie.bytes record.render = record.cookie
  host : entry.host.bytes record.render = record.host
  status : entry.status = record.status
  bytes : entry.bytes = record.bytes
  respBytes : entry.respBytes = record.bytes
  ts : entry.ts = record.time.instant

end AccessRecord

theorem stripIpv6Brackets_of_unbracketed {field rest : Bytes} {p : ℕ}
    (here : line.drop p = field ++ rest)
    (unbracketed : ¬(field.head? = some (chr '[') ∧ field.getLast? = some (chr ']'))) :
    stripIpv6Brackets line p field.length = .line p field.length := by
  unfold stripIpv6Brackets
  rw [here, take_left, if_neg]
  exact fun bracketed => unbracketed bracketed.2.2

theorem dashAsNull_of_ne (other : view.bytes line ≠ ascii "-") :
    dashAsNull line view = view := if_neg other

theorem bodyOrNull_of_ne
    (other : view.bytes line ≠ ascii "-" ∧ (view.bytes line).head? ≠ some (chr '/')) :
    bodyOrNull line view = view := by
  rw [bodyOrNull, if_neg other.2, dashAsNull_of_ne other.1]

theorem ne_zero_of_mem (untampered : logLineIsTampered line = false) (member : byte ∈ line) :
    byte ≠ 0 := by
  simp only [logLineIsTampered, any_eq_false] at untampered
  rintro rfl
  exact untampered 0 member (by decide)

namespace AccessRecord

variable {record : AccessRecord}

def front (record : AccessRecord) : LineFront where
  ip := record.ip
  user := record.user
  time := record.time.text
  method := record.method
  url := record.url
  protocol := record.protocol
  status := numeral record.status
  bytes := numeral record.bytes
  referer := record.referer

theorem render_eq (record : AccessRecord) :
    record.render = record.front.render ++ (record.userAgent ++ chr '"' :: 32 :: chr '"' ::
      (record.xff ++ chr '"' :: 32 :: chr '"' :: (record.body ++ chr '"' :: 32 :: chr '"' ::
      (record.cookie ++ chr '"' :: 32 :: chr '"' :: (record.host ++ chr '"' :: []))))) := by
  have literals : ascii "\" \"" = [chr '"', 32, chr '"'] ∧ ascii "\"" = [chr '"'] := by decide
  delta render LineFront.render front
  simp [literals]

theorem mem_render_of_word {word : Bytes}
    (isWord : word ∈ [record.ip, record.user, record.method, record.url, record.protocol])
    {byte : UInt8} (member : byte ∈ word) : byte ∈ record.render := by
  simp only [mem_cons, not_mem_nil, or_false] at isWord
  delta render
  rcases isWord with rfl | rfl | rfl | rfl | rfl <;>
    simp only [mem_append, member, true_or, or_true]

theorem ip_prefix_render (record : AccessRecord) : record.ip <+: record.render := by
  delta render
  simp only [append_assoc]
  exact prefix_append _ _

theorem inOrder_front (wellFormed : record.WellFormed) : record.front.InOrder := by
  refine ⟨?_, wellFormed.timeText, ?_, wellFormed.escaped _ mem_cons_self⟩
  · intro word member
    have plain := wellFormed.words word member
    refine ⟨plain.1, fun byte inside => ⟨(plain.2 byte inside).1, (plain.2 byte inside).2, ?_⟩⟩
    apply ne_zero_of_mem wellFormed.untampered
    exact mem_render_of_word member inside
  · intro number member
    simp only [front, mem_cons, not_mem_nil, or_false] at member
    rcases member with rfl | rfl
    · exact ⟨numeral_ne_nil _, fun byte => isDigit_of_mem_numeral⟩
    · exact ⟨numeral_ne_nil _, fun byte => isDigit_of_mem_numeral⟩

end AccessRecord

theorem bmod_of_lt {value : ℤ} (nonneg : 0 ≤ value) (fits : value < (2 ^ 63 : ℕ)) :
    Int.bmod value (2 ^ 64) = value := by
  rw [Int.bmod_eq_of_le] <;> omega

theorem runDfa_render {record : AccessRecord} (wellFormed : record.WellFormed) :
    (runDfa record.render).state = .done ∧
      record.ReadBack { (runDfa record.render).out with respBytes := (runDfa record.render).out.bytes } := by
  have escaped := wellFormed.escaped
  simp only [mem_cons, not_mem_nil, or_false, forall_eq_or_imp, forall_eq] at escaped
  rcases escaped with ⟨-, userAgent, xff, body, cookie, host⟩
  rcases reaches_front (AccessRecord.inOrder_front wellFormed) record.render_eq
    with ⟨atUa, out, fromUa, stored, readFront⟩
  rcases reaches_xff fromUa userAgent with ⟨atXff, fromXff, readUa⟩
  rcases reaches_body fromXff xff with ⟨atBody, fromBody, readXff⟩
  rcases reaches_cookie fromBody body with ⟨atCookie, fromCookie, readBody⟩
  rcases reaches_host fromCookie cookie with ⟨atHost, fromHost, readCookie⟩
  rcases reaches_done fromHost host with ⟨atEnd, readHost⟩
  have path := readFront.trans <| readUa.trans <| readXff.trans <| readBody.trans <|
    readCookie.trans readHost
  have result : runDfa record.render = _ :=
    path.run_eq (Or.inr (Or.inl rfl)) (halted_runDfa record.render)
  have ip : out.ip.bytes record.render = record.ip := by
    rcases record.ip_prefix_render with ⟨rest, same⟩
    have here : record.render.drop 0 = record.ip ++ rest := same.symm
    have view : out.ip = .line 0 record.ip.length :=
      stored.ip.trans (stripIpv6Brackets_of_unbracketed here wellFormed.unbracketed)
    rw [view]
    exact bytes_of_drop here
  have status : accumulate toCInt (numeral record.status) 0 = record.status := by
    have bounds := wellFormed.status
    rw [accumulate_eq (fun _ => toCInt_of_lt), decimalValue_numeral]
    rw [decimalValue_numeral]
    omega
  have bytes : accumulate (Int.bmod · (2 ^ 64)) (numeral record.bytes) 0 = record.bytes := by
    have bound := wellFormed.bytes
    rw [accumulate_eq (fun _ => bmod_of_lt), decimalValue_numeral]
    rw [decimalValue_numeral]
    exact bound
  have bodyView := bytes_of_drop fromBody
  have cookieView := bytes_of_drop fromCookie
  have hostView := bytes_of_drop fromHost
  rw [result]
  refine ⟨rfl, ?_⟩
  constructor
  · exact ip
  · exact stored.method
  · exact stored.url
  · exact stored.protocol
  · exact bytes_of_drop fromUa
  · exact bytes_of_drop fromXff
  · dsimp only
    rw [bodyOrNull_of_ne (by rw [bodyView]; exact wellFormed.body), bodyView]
  · dsimp only
    rw [dashAsNull_of_ne (by rw [cookieView]; exact wellFormed.cookie), cookieView]
  · dsimp only
    rw [dashAsNull_of_ne (by rw [hostView]; exact wellFormed.host), hostView]
  · exact stored.status.trans status
  · exact stored.bytes.trans bytes
  · exact stored.bytes.trans bytes
  · exact stored.ts.trans (parseTimestamp_text wellFormed.time)

/-- A well-formed record is read back from its line. -/
theorem parseLogLine_render {env : ParserEnv} {record : AccessRecord}
    (untrusted : env.trustXff = false) (wellFormed : record.WellFormed) :
    ∃ entry, parseLogLine env record.render = .ok entry ∧ record.ReadBack entry := by
  have words := wellFormed.words
  simp only [mem_cons, forall_eq_or_imp] at words
  rcases words with ⟨ip, -, method, url, -⟩
  have nonempty : record.render ≠ [] := by
    intro empty
    have noIp := record.ip_prefix_render
    rw [empty, prefix_nil] at noIp
    exact ip.1 noIp
  have result := runDfa_render wellFormed
  rw [parseLogLine_of_unsniffed nonempty wellFormed.untampered wellFormed.noSshd wellFormed.noSudo]
  generalize runDfa record.render = dfa at result ⊢
  rcases result with ⟨done, readBack⟩
  refine ⟨_, ?_, readBack⟩
  rw [acceptEntry_of_fields, applyXff_of_untrusted]
  · intro trust
    rw [untrusted] at trust
    exact Bool.noConfusion trust
  · rw [done]
    decide
  · exact StrView.len_ne_zero (readBack.ip.trans_ne ip.1)
  · have instant := wellFormed.time.afterEpoch.2
    have ts : dfa.out.ts = _ := readBack.ts
    omega
  · exact StrView.len_ne_zero (readBack.method.trans_ne method.1)
  · exact StrView.len_ne_zero (readBack.url.trans_ne url.1)
  · have bounds := wellFormed.status
    have status : dfa.out.status = _ := readBack.status
    omega

def loginRecord : AccessRecord where
  ip := ascii "203.0.113.7"
  user := ascii "-"
  time := ⟨ascii "15", 5, ascii "2026", ascii "10", ascii "00", ascii "00", ascii " +0200"⟩
  method := ascii "POST"
  url := ascii "/login"
  protocol := ascii "HTTP/1.1"
  status := 403
  bytes := 512
  referer := ascii "-"
  userAgent := ascii "curl/8.5"
  xff := ascii "-"
  body := ascii "name=\\\"admin\\\""
  cookie := ascii "session=1"
  host := ascii "example.org"

theorem parseLogLine_render_login :
    plainEnv.trustXff = false ∧ loginRecord.WellFormed ∧
      ∃ entry, parseLogLine plainEnv loginRecord.render = .ok entry ∧ loginRecord.ReadBack entry := by
  have time : loginRecord.time.Valid := by
    constructor
    case afterEpoch => exact TimeText.afterEpoch_of_year (by decide +kernel)
    all_goals decide +kernel
  have wellFormed : loginRecord.WellFormed := by
    constructor
    case time => exact time
    all_goals decide +kernel
  exact ⟨rfl, wellFormed, parseLogLine_render rfl wellFormed⟩

end LogGuardian
