import LogGuardian.Api.PostBan
import LogGuardian.Fleet.Agent
import LogGuardian.Lib.Lines
import LogGuardian.Lib.RateWindow

/-!
# Authenticated mutations
-/

namespace LogGuardian

open List

universe u

/-- The loop of `http_header_value`, with the byte in front of the text it has come to. -/
def findHeader (pattern : Bytes) : ℕ → Option UInt8 → Bytes → Option Bytes
  | 0, _, _ => none
  | fuel + 1, before, text =>
    match Search.find pattern text with
    | none => none
    | some offset =>
      let previous := if offset = 0 then before else text[offset - 1]?
      let rest := text.drop (offset + pattern.length)
      if previous = none ∨ previous = some 10 then some rest
      else findHeader pattern fuel pattern.getLast? rest

def headerPattern (name : Bytes) : Bytes := copyInto 80 (name ++ [chr ':'])

def httpHeaderValue (req name : Bytes) (cap : ℕ) : Option Bytes :=
  match findHeader (headerPattern name) (req.length + 1) none req with
  | none => none
  | some found =>
    let value := copyInto cap ((found.dropWhile (· = 32)).takeWhile (!endsLine ·))
    if value = [] then none else some value

def apiTokenMatches (expected req : Bytes) : Bool :=
  ((httpHeaderValue req (ascii "Authorization") 256).any fun hdr =>
      (ascii "Bearer ").isPrefixOf hdr && secureEquals (hdr.drop 7) expected) ||
    (httpHeaderValue req (ascii "X-Guardian-Token") 256).any fun hdr => secureEquals hdr expected

def tokenExpected (setting : Option Bytes) : Option Bytes := setting.filter (· ≠ [])

structure PostRequest where
  mutationToken : Option Bytes
  readToken : Option Bytes
  mtlsStrict : Option Bytes
  peerIp : Bytes
  unban : Bool
  req : Bytes
  whitelist : Bytes → Bool
  now : ℕ
  reqString : 0 ∉ req
  mutationString : ∀ token ∈ mutationToken, 0 ∉ token
  readString : ∀ token ∈ readToken, 0 ∉ token

namespace PostRequest

variable (post : PostRequest)

def minute : ℤ := ((post.now / 60 : ℕ) : ℤ)

def apiCheckMutationAuth : Bool :=
  match tokenExpected post.mutationToken with
  | some token => apiTokenMatches token post.req
  | none =>
    match tokenExpected post.readToken with
    | none => false
    | some token => apiTokenMatches token post.req

def apiPeerIsLoopback : Bool :=
  post.peerIp ≠ [] && (post.peerIp = ascii "127.0.0.1" || post.peerIp = ascii "::1" ||
    (ascii "127.").isPrefixOf post.peerIp)

def apiCheckMutationPeerStrict : Bool :=
  let strict := post.mtlsStrict.any fun value =>
    value = ascii "1" || value = ascii "true" || value = ascii "yes"
  !strict || post.apiPeerIsLoopback

def Counted : Bool := post.apiCheckMutationAuth && post.apiCheckMutationPeerStrict

end PostRequest

def banMaxPerMin : ℕ := 30

structure PostHistory (State : Type u) where
  banRate : RateWindow := {}
  state : State
  log : List (PostRequest × Option MutationAudit) := []

section Handler

variable {State : Type u} (layers : Layers State)

/-- `handle_post_ban` with its checks. -/
def postStep (history : PostHistory State) (post : PostRequest) : PostHistory State :=
  let banRate := if post.Counted then history.banRate.tick post.minute else history.banRate
  let gate : MutationGate :=
    ⟨post.apiCheckMutationAuth, post.apiCheckMutationPeerStrict, banRate.count ≤ banMaxPerMin⟩
  let outcome := handlePostBan layers post.whitelist gate post.unban post.req history.state
  ⟨banRate, outcome.state, history.log ++ [(post, outcome.audit)]⟩

def postRun (state : State) (posts : List PostRequest) : PostHistory State :=
  Machine.run (postStep layers) { state } posts

end Handler

def headerSection (req : Bytes) : Bytes :=
  match Search.find [13, 10, 13, 10] req with
  | none => req
  | some offset => req.take offset

def stripReturn (line : Bytes) : Bytes := if line.getLast? = some 13 then line.dropLast else line

def textLines (text : Bytes) : List Bytes := (text.splitOn 10).map stripReturn

def headerLines (req : Bytes) : List Bytes := (textLines (headerSection req)).tail

def fieldName (line : Bytes) : Bytes := line.takeWhile (· ≠ chr ':')

def fieldValue (line : Bytes) : Bytes :=
  ((line.dropWhile (· ≠ chr ':')).drop 1).dropWhile (· = 32)

/-- The request has a header field with this name and value. -/
abbrev HasField (req name value : Bytes) : Prop :=
  ∃ line ∈ headerLines req, fieldName line = name ∧ fieldValue line = value

/-- The request carries a token. -/
abbrev CarriesToken (req token : Bytes) : Prop :=
  HasField req (ascii "Authorization") (ascii "Bearer " ++ token) ∨
    HasField req (ascii "X-Guardian-Token") token

def PostRequest.requiredToken (post : PostRequest) : Option Bytes :=
  (tokenExpected post.mutationToken).or (tokenExpected post.readToken)

structure MutationsGuarded (log : List (PostRequest × Option MutationAudit)) : Prop where
  capped : ∀ minute, (log.countP fun entry => entry.2.isSome ∧ entry.1.minute = minute) ≤
    banMaxPerMin
  valid : ∀ entry ∈ log, ∀ audit ∈ entry.2, isValidIp audit.ip = true
  authentic : ∀ entry ∈ log, entry.2.isSome = true →
    ∃ token, entry.1.requiredToken = some token ∧ CarriesToken entry.1.req token

/-- Every line that begins like one of the two headers is a header line, and its value is one
that the buffer takes as a whole. -/
abbrev PlainHeaders (req : Bytes) : Prop :=
  ∀ name ∈ [ascii "Authorization", ascii "X-Guardian-Token"], ∀ line ∈ textLines req,
    name ++ [chr ':'] <+: line →
      line ∈ headerLines req ∧ 13 ∉ fieldValue line ∧ (fieldValue line).length < 256

section Headers

variable {pattern text rest : Bytes}

theorem previous_eq (before : Option UInt8) {offset : ℕ} (inside : offset ≤ text.length) :
    (if offset = 0 then before else text[offset - 1]?) = (text.take offset).getLast?.or before := by
  rcases offset with _ | offset
  · simp
  · simp [getLast?_take, List.getElem?_eq_getElem (show offset < text.length by omega)]

theorem findHeader_eq_some {last : UInt8} (ending : pattern.getLast? = some last) (inLine : last ≠ 10)
    {fuel : ℕ} {before : Option UInt8} (found : findHeader pattern fuel before text = some rest) :
    ∃ front, text = front ++ (pattern ++ rest) ∧
      (front.getLast?.or before = none ∨ front.getLast?.or before = some 10) := by
  induction fuel generalizing before text with
  | zero => simp [findHeader] at found
  | succ fuel ih =>
    rw [findHeader] at found
    rcases search : Search.find pattern text with _ | offset
    · simp [search] at found
    · rcases Search.prefix_drop_of_find search with ⟨behind, split⟩
      have whole : text = text.take offset ++ (pattern ++ behind) := by
        rw [split, take_append_drop]
      have rests : text.drop (offset + pattern.length) = behind := by
        rw [← drop_drop, ← split, drop_left]
      have inside : offset ≤ text.length := by
        by_contra outside
        rw [drop_of_length_le (by omega), append_eq_nil_iff] at split
        simp [split.1] at ending
      simp only [search, rests, previous_eq before inside] at found
      by_cases starts : (text.take offset).getLast?.or before = none ∨
          (text.take offset).getLast?.or before = some 10
      · rw [if_pos starts, Option.some.injEq] at found
        exact ⟨text.take offset, by rw [← found]; exact whole, starts⟩
      · rw [if_neg starts] at found
        rcases ih found with ⟨front, restSplit, starts⟩
        refine ⟨text.take offset ++ (pattern ++ front), ?_, ?_⟩
        · rw [append_assoc, append_assoc, ← restSplit]
          exact whole
        · rw [ending] at starts
          rcases lastByte : front.getLast? with _ | byte
          · simp [lastByte, inLine] at starts
          · simpa [lastByte] using starts

theorem mem_splitOn_of_line {front line behind : Bytes} (starts : front = [] ∨ front.getLast? = some 10)
    (plain : 10 ∉ line) (ends : behind = [] ∨ ∃ more, behind = 10 :: more) :
    line ∈ (front ++ (line ++ behind)).splitOn 10 := by
  have inRest : line ∈ (line ++ behind).splitOn 10 := by
    rcases ends with rfl | ⟨more, rfl⟩
    · rw [append_nil, Lines.splitOn_of_not_mem plain]
      exact mem_singleton_self line
    · rw [Lines.splitOn_append_cons, Lines.splitOn_of_not_mem plain]
      simp
  rcases starts with rfl | newline
  · exact inRest
  · rcases getLast?_eq_some_iff.mp newline with ⟨init, rfl⟩
    rw [append_assoc, singleton_append, Lines.splitOn_append_cons]
    exact mem_append_right _ inRest

theorem stripReturn_concat (line : Bytes) (byte : UInt8) :
    stripReturn (line ++ [byte]) = if byte = 13 then line else line ++ [byte] := by
  simp [stripReturn]

theorem stripReturn_append {first : Bytes} {last : UInt8} (ending : first.getLast? = some last)
    (inLine : last ≠ 13) (line : Bytes) : stripReturn (first ++ line) = first ++ stripReturn line := by
  rcases eq_nil_or_concat line with rfl | ⟨init, byte, rfl⟩
  · simp [stripReturn, ending, inLine]
  · rw [concat_eq_append, ← append_assoc, stripReturn_concat, stripReturn_concat]
    split
    · rfl
    · rw [append_assoc]

theorem eq_stripReturn_append (line : Bytes) :
    ∃ ending, line = stripReturn line ++ ending ∧ (ending = [] ∨ ending = [13]) := by
  rcases eq_nil_or_concat line with rfl | ⟨init, byte, rfl⟩
  · exact ⟨[], rfl, .inl rfl⟩
  · rw [concat_eq_append, stripReturn_concat]
    by_cases isReturn : byte = 13
    · exact ⟨[13], by simp [isReturn], .inr rfl⟩
    · exact ⟨[], by simp [isReturn], .inl rfl⟩

theorem takeWhile_eq_fieldValue {line behind : Bytes} (plain : 10 ∉ line)
    (ends : behind = [] ∨ ∃ more, behind = 10 :: more)
    (oneLine : 13 ∉ (stripReturn line).dropWhile (· = 32)) :
    ((line ++ behind).dropWhile (· = 32)).takeWhile (!endsLine ·) =
      (stripReturn line).dropWhile (· = 32) := by
  rcases eq_stripReturn_append line with ⟨ending, whole, isReturn⟩
  have pass : ∀ byte ∈ (stripReturn line).dropWhile (· = 32), (!endsLine byte) = true := by
    intro byte inValue
    have inLine : byte ∈ line := by
      rw [whole]
      exact mem_append_left _ ((dropWhile_sublist _).subset inValue)
    have notFeed : byte ≠ 10 := fun feed => plain (feed ▸ inLine)
    have notReturn : byte ≠ 13 := fun isReturn => oneLine (isReturn ▸ inValue)
    simp [endsLine, notFeed, notReturn]
  have kept : (ending ++ behind).dropWhile (· = 32) = ending ++ behind := by
    rcases isReturn with rfl | rfl <;> rcases ends with rfl | ⟨more, rfl⟩ <;> simp
  have stop : (ending ++ behind).takeWhile (!endsLine ·) = [] := by
    rcases isReturn with rfl | rfl <;> rcases ends with rfl | ⟨more, rfl⟩ <;> simp [endsLine]
  have split : (line ++ behind).dropWhile (· = 32) =
      (stripReturn line).dropWhile (· = 32) ++ (ending ++ behind) := by
    nth_rewrite 1 [whole]
    rw [append_assoc, dropWhile_append, kept]
    split
    · rename_i empty
      rw [List.isEmpty_iff.mp empty, nil_append]
    · rfl
  rw [split, takeWhile_append_of_pos pass, stop, append_nil]

end Headers

variable {name line req value token : Bytes}

theorem fieldName_of_pattern (plain : chr ':' ∉ name) :
    fieldName (name ++ chr ':' :: line) = name := by
  rw [fieldName, takeWhile_append_of_pos]
  · simp
  · intro byte inName
    have other : byte ≠ chr ':' := fun colon => plain (colon ▸ inName)
    simpa using other

theorem fieldValue_of_pattern (plain : chr ':' ∉ name) :
    fieldValue (name ++ chr ':' :: line) = line.dropWhile (· = 32) := by
  have skipped : (name ++ chr ':' :: line).dropWhile (· ≠ chr ':') = chr ':' :: line := by
    rw [dropWhile_append_of_pos]
    · simp
    · intro byte inName
      have other : byte ≠ chr ':' := fun colon => plain (colon ▸ inName)
      simpa using other
  rw [fieldValue, skipped]
  rfl

/-- A name of a header. -/
structure HeaderName (name : Bytes) : Prop where
  short : name.length < 79
  noColon : chr ':' ∉ name
  oneLine : 10 ∉ name

theorem hasField_of_httpHeaderValue (plain : PlainHeaders req)
    (watched : name ∈ [ascii "Authorization", ascii "X-Guardian-Token"]) (proper : HeaderName name)
    (read : httpHeaderValue req name 256 = some value) : HasField req name value := by
  have pattern : headerPattern name = name ++ [chr ':'] := by
    rw [headerPattern, copyInto, take_of_length_le]
    have short := proper.short
    simp only [length_append, length_singleton]
    omega
  have ending : (name ++ [chr ':']).getLast? = some (chr ':') := by simp
  rw [httpHeaderValue, pattern] at read
  rcases search : findHeader (name ++ [chr ':']) (req.length + 1) none req with _ | found
  · simp [search] at read
  rcases findHeader_eq_some ending (by decide) search with ⟨front, whole, starts⟩
  rw [Option.or_none] at starts
  have atLine : front = [] ∨ front.getLast? = some 10 := by
    rw [getLast?_eq_none_iff] at starts
    exact starts
  have splitFound : found = found.takeWhile (· ≠ 10) ++ found.dropWhile (· ≠ 10) :=
    List.takeWhile_append_dropWhile.symm
  have noFeed : 10 ∉ found.takeWhile (· ≠ 10) := by
    intro inLine
    simpa using mem_takeWhile_imp inLine
  have ends : found.dropWhile (· ≠ 10) = [] ∨ ∃ more, found.dropWhile (· ≠ 10) = 10 :: more := by
    have stopped := head?_dropWhile_not (· ≠ 10) found
    rcases behind : found.dropWhile (· ≠ 10) with _ | ⟨byte, more⟩
    · exact .inl behind
    · rw [behind] at stopped
      have isFeed : byte = 10 := by simpa using stopped
      exact .inr ⟨more, by rw [behind, isFeed]⟩
  generalize found.takeWhile (· ≠ 10) = line at splitFound noFeed
  generalize found.dropWhile (· ≠ 10) = behind at splitFound ends
  have isLine : name ++ chr ':' :: stripReturn line ∈ textLines req := by
    refine List.mem_map.mpr ⟨name ++ chr ':' :: line, ?_, ?_⟩
    · have regroup : req = front ++ ((name ++ chr ':' :: line) ++ behind) := by
        rw [whole, splitFound]
        simp
      rw [regroup]
      apply mem_splitOn_of_line atLine _ ends
      simp [proper.oneLine, noFeed]
      decide
    · have regroup : name ++ chr ':' :: line = (name ++ [chr ':']) ++ line := by simp
      rw [regroup, stripReturn_append ending (by decide), append_assoc, singleton_append]
  rcases plain name watched _ isLine ⟨stripReturn line, by simp⟩ with ⟨inHeaders, oneLine, fits⟩
  rw [fieldValue_of_pattern proper.noColon] at oneLine fits
  refine ⟨_, inHeaders, fieldName_of_pattern proper.noColon, ?_⟩
  rw [fieldValue_of_pattern proper.noColon]
  simp only [search] at read
  rw [splitFound, takeWhile_eq_fieldValue noFeed ends oneLine, copyInto,
    take_of_length_le (by omega)] at read
  split at read
  · cases read
  · exact Option.some.inj read

theorem mem_of_findHeader {pattern text rest : Bytes} {fuel : ℕ} {before : Option UInt8}
    (found : findHeader pattern fuel before text = some rest) : ∀ byte ∈ rest, byte ∈ text := by
  induction fuel generalizing before text with
  | zero => simp [findHeader] at found
  | succ fuel ih =>
    rw [findHeader] at found
    rcases search : Search.find pattern text with _ | offset
    · simp [search] at found
    · simp only [search] at found
      intro byte inRest
      by_cases starts : (if offset = 0 then before else text[offset - 1]?) = none ∨
          (if offset = 0 then before else text[offset - 1]?) = some 10
      · rw [if_pos starts, Option.some.injEq] at found
        rw [← found] at inRest
        exact mem_of_mem_drop inRest
      · rw [if_neg starts] at found
        exact mem_of_mem_drop (ih found byte inRest)

theorem nulFree_of_httpHeaderValue {cap : ℕ} (string : 0 ∉ req)
    (read : httpHeaderValue req name cap = some value) : 0 ∉ value := by
  rw [httpHeaderValue] at read
  rcases search : findHeader (headerPattern name) (req.length + 1) none req with _ | found
  · simp [search] at read
  have inRequest : ∀ byte ∈ found, byte ∈ req := mem_of_findHeader search
  simp only [search] at read
  split at read
  · cases read
  · rw [Option.some.injEq] at read
    intro inValue
    rw [← read] at inValue
    have inLine := (takeWhile_sublist _).subset (mem_of_mem_take inValue)
    exact string (inRequest 0 ((dropWhile_sublist _).subset inLine))

theorem carriesToken_of_apiTokenMatches (plain : PlainHeaders req) (string : 0 ∉ req)
    (tokenString : 0 ∉ token) (accepted : apiTokenMatches token req = true) :
    CarriesToken req token := by
  simp only [apiTokenMatches, Bool.or_eq_true, Option.any_eq_true, Bool.and_eq_true,
    isPrefixOf_iff_prefix] at accepted
  rcases accepted with ⟨hdr, read, ⟨value, bearer⟩, equal⟩ | ⟨hdr, read, equal⟩
  · have hdrString := nulFree_of_httpHeaderValue string read
    rw [← bearer, mem_append, not_or] at hdrString
    have dropped : hdr.drop 7 = value := by
      rw [← bearer]
      exact drop_left' (by decide)
    rw [dropped] at equal
    have same := eq_of_secureEquals hdrString.2 tokenString equal
    left
    rw [← same, bearer]
    exact hasField_of_httpHeaderValue plain (by simp) ⟨by decide, by decide, by decide⟩ read
  · have same := eq_of_secureEquals (nulFree_of_httpHeaderValue string read) tokenString equal
    right
    rw [← same]
    exact hasField_of_httpHeaderValue plain (by simp) ⟨by decide, by decide, by decide⟩ read

theorem mem_of_tokenExpected {setting : Option Bytes}
    (expected : tokenExpected setting = some token) : token ∈ setting := by
  rw [tokenExpected, Option.filter_eq_some_iff] at expected
  exact expected.1

theorem PostRequest.carries_of_auth {post : PostRequest} (plain : PlainHeaders post.req)
    (auth : post.apiCheckMutationAuth = true) :
    ∃ token, post.requiredToken = some token ∧ CarriesToken post.req token := by
  rw [apiCheckMutationAuth] at auth
  rcases mutation : tokenExpected post.mutationToken with _ | token
  · rcases read : tokenExpected post.readToken with _ | token
    · simp [mutation, read] at auth
    · simp only [mutation, read] at auth
      refine ⟨token, by simp [requiredToken, mutation, read], ?_⟩
      apply carriesToken_of_apiTokenMatches plain post.reqString _ auth
      exact post.readString token (mem_of_tokenExpected read)
  · simp only [mutation] at auth
    refine ⟨token, by simp [requiredToken, mutation], ?_⟩
    apply carriesToken_of_apiTokenMatches plain post.reqString _ auth
    exact post.mutationString token (mem_of_tokenExpected mutation)

section Runs

variable {State : Type u} (layers : Layers State)

theorem gate_of_audit {whitelist : Bytes → Bool} {gate : MutationGate} {unban : Bool} {req : Bytes}
    {state : State} {audit : MutationAudit}
    (called : audit ∈ (handlePostBan layers whitelist gate unban req state).audit) :
    (gate.mutationAuth = true ∧ gate.peerStrict = true) ∧ gate.banRateOk = true ∧
      isValidIp audit.ip = true := by
  unfold handlePostBan at called
  dsimp only at called
  split at called
  · cases called
  rename_i passed
  split at called
  · cases called
  rename_i within
  split at called
  · cases called
  split at called
  · cases called
  rename_i valid
  simp only [Bool.or_eq_true, Bool.not_eq_true', not_or, Bool.not_eq_false] at passed within valid
  split at called
  · cases called
    exact ⟨passed, within, valid⟩
  · cases called
    exact ⟨passed, within, valid⟩

def countedMinutes (posts : List PostRequest) : List ℤ :=
  (posts.filter PostRequest.Counted).map PostRequest.minute

def callsIn (log : List (PostRequest × Option MutationAudit)) (minute : ℤ) : ℕ :=
  log.countP fun entry => entry.2.isSome ∧ entry.1.minute = minute

/-- What holds after the given requests. -/
structure PostInvariant (posts : List PostRequest) (history : PostHistory State) : Prop where
  tracks : history.banRate.Tracks (countedMinutes posts)
  capped : ∀ minute, callsIn history.log minute ≤
    min ((countedMinutes posts).count minute) banMaxPerMin
  valid : ∀ entry ∈ history.log, ∀ audit ∈ entry.2, isValidIp audit.ip = true
  authentic : ∀ entry ∈ history.log, entry.2.isSome = true →
    ∃ token, entry.1.requiredToken = some token ∧ CarriesToken entry.1.req token

variable {posts : List PostRequest} {history : PostHistory State} {post : PostRequest}

theorem countedMinutes_snoc : countedMinutes (posts ++ [post]) =
    countedMinutes posts ++ if post.Counted then [post.minute] else [] := by
  rcases counted : post.Counted <;> simp [countedMinutes, counted]

theorem callsIn_snoc (log : List (PostRequest × Option MutationAudit)) (audit : Option MutationAudit)
    (minute : ℤ) : callsIn (log ++ [(post, audit)]) minute =
      callsIn log minute + if audit.isSome ∧ post.minute = minute then 1 else 0 := by
  simp [callsIn]

theorem latest_countedMinutes (latest : ∀ other ∈ posts, other.now ≤ post.now) :
    ∀ time ∈ countedMinutes posts, time ≤ post.minute := by
  intro time inTimes
  rcases List.mem_map.mp inTimes with ⟨other, counted, rfl⟩
  have before := latest other (List.mem_filter.mp counted).1
  simp only [PostRequest.minute]
  omega

theorem count_countedMinutes_le (minute : ℤ) :
    (countedMinutes posts).count minute ≤ posts.countP (·.minute = minute) := by
  rw [countedMinutes, count, countP_map, countP_filter]
  apply countP_mono_left
  intro other _ both
  simp at both
  simpa using both.1

theorem banRate_postStep : (postStep layers history post).banRate =
    if post.Counted then history.banRate.tick post.minute else history.banRate := rfl

theorem exists_audit : ∃ audit : Option MutationAudit,
    (postStep layers history post).log = history.log ++ [(post, audit)] ∧
      (audit.isSome = true → post.Counted = true ∧
        (postStep layers history post).banRate.count ≤ banMaxPerMin) := by
  refine ⟨_, rfl, ?_⟩
  intro called
  rcases Option.isSome_iff_exists.mp called with ⟨audit, called⟩
  rcases gate_of_audit layers called with ⟨⟨auth, peer⟩, within, _⟩
  refine ⟨?_, of_decide_eq_true within⟩
  rw [PostRequest.Counted, Bool.and_eq_true]
  exact ⟨auth, peer⟩

theorem PostInvariant.counter_step (invariant : PostInvariant posts history)
    (latest : ∀ other ∈ posts, other.now ≤ post.now)
    (few : (posts ++ [post]).countP (·.minute = post.minute) < 2 ^ 31) :
    (postStep layers history post).banRate.Tracks (countedMinutes (posts ++ [post])) ∧
      ∀ minute, callsIn (postStep layers history post).log minute ≤
        min ((countedMinutes (posts ++ [post])).count minute) banMaxPerMin := by
  have ordered := latest_countedMinutes latest
  have bounded : (countedMinutes posts).count post.minute ≤ _ := count_countedMinutes_le post.minute
  rw [countP_append, countP_singleton, if_pos (by simp)] at few
  rcases @exists_audit _ layers history post with ⟨audit, logged, called⟩
  rw [logged, countedMinutes_snoc]
  rw [banRate_postStep] at called ⊢
  by_cases counted : post.Counted = true
  · rw [if_pos counted] at called
    rw [if_pos counted, if_pos counted]
    rw [invariant.tracks.tick_eq ordered (by omega)] at called ⊢
    refine ⟨RateWindow.tracks_counted ordered, ?_⟩
    intro minute
    have capped := invariant.capped minute
    rw [callsIn_snoc, count_append]
    by_cases same : post.minute = minute
    · subst same
      by_cases reached : audit.isSome = true
      · have within : ((countedMinutes posts).count post.minute : ℤ) + 1 ≤ banMaxPerMin :=
          (called reached).2
        simp [reached]
        omega
      · simp [reached]
        omega
    · simp [same]
      omega
  · rw [if_neg counted, if_neg counted, append_nil]
    refine ⟨invariant.tracks, ?_⟩
    intro minute
    have unreached : ¬audit.isSome = true := fun reached => counted (called reached).1
    rw [callsIn_snoc]
    simpa [unreached] using invariant.capped minute

theorem PostInvariant.step (invariant : PostInvariant posts history)
    (latest : ∀ other ∈ posts, other.now ≤ post.now)
    (few : (posts ++ [post]).countP (·.minute = post.minute) < 2 ^ 31)
    (plain : PlainHeaders post.req) :
    PostInvariant (posts ++ [post]) (postStep layers history post) where
  tracks := (invariant.counter_step layers latest few).1
  capped := (invariant.counter_step layers latest few).2
  valid := by
    intro entry logged audit called
    rcases List.mem_append.mp logged with before | isNew
    · exact invariant.valid entry before audit called
    · rw [List.mem_singleton.mp isNew] at called
      exact (gate_of_audit layers called).2.2
  authentic := by
    intro entry logged called
    rcases List.mem_append.mp logged with before | isNew
    · exact invariant.authentic entry before called
    · rw [List.mem_singleton.mp isNew] at called ⊢
      rcases Option.isSome_iff_exists.mp called with ⟨audit, called⟩
      exact post.carries_of_auth plain (gate_of_audit layers called).1.1

theorem postRun_snoc (state : State) (posts : List PostRequest) (post : PostRequest) :
    postRun layers state (posts ++ [post]) = postStep layers (postRun layers state posts) post := by
  rw [postRun, Machine.run_append]
  rfl

theorem postInvariant_postRun (state : State) (ordered : posts.Pairwise fun a b => a.now ≤ b.now)
    (few : ∀ minute, posts.countP (·.minute = minute) < 2 ^ 31)
    (plain : ∀ post ∈ posts, PlainHeaders post.req) :
    PostInvariant posts (postRun layers state posts) := by
  induction posts using reverseRecOn with
  | nil =>
    exact ⟨RateWindow.tracks_nil, fun _ => Nat.zero_le _, fun _ logged => (nomatch logged),
      fun _ logged => (nomatch logged)⟩
  | append_singleton posts post ih =>
    rw [pairwise_append] at ordered
    rw [postRun_snoc]
    apply PostInvariant.step
    · apply ih ordered.1
      · intro minute
        exact (countP_append ▸ Nat.le_add_right _ _).trans_lt (few minute)
      · exact fun other inPosts => plain other (mem_append_left _ inPosts)
    · exact fun other inPosts => ordered.2.2 other inPosts post (mem_singleton_self post)
    · exact few post.minute
    · exact plain post (by simp)

/-- Requests whose headers are plain, and fewer than fit the counter, reach the pipeline at most
thirty times a minute, for addresses only, and only with the token that is asked for. -/
theorem postRun_guarded (state : State) {posts : List PostRequest}
    (ordered : posts.Pairwise fun a b => a.now ≤ b.now)
    (few : ∀ minute, posts.countP (·.minute = minute) < 2 ^ 31)
    (plain : ∀ post ∈ posts, PlainHeaders post.req) :
    MutationsGuarded (postRun layers state posts).log := by
  have invariant := postInvariant_postRun layers state ordered few plain
  refine ⟨?_, invariant.valid, invariant.authentic⟩
  intro minute
  exact (invariant.capped minute).trans (min_le_right _ _)

end Runs

def bannedWith (token header : Bytes) (tokenString : 0 ∉ token) (headerString : 0 ∉ header) :
    PostRequest where
  mutationToken := some token
  readToken := none
  mtlsStrict := none
  peerIp := ascii "192.0.2.1"
  unban := false
  req := ascii "POST /api/v1/ban?ip=198.51.100.7 HTTP/1.1\r\n" ++ header ++ ascii "\r\n\r\n"
  whitelist := fun _ => false
  now := 120
  reqString := by
    simp only [List.mem_append, not_or]
    exact ⟨⟨by decide, headerString⟩, by decide⟩
  mutationString := by
    intro other isToken
    rwa [← Option.some.inj isToken]
  readString := by simp

def plainPost : PostRequest :=
  bannedWith (ascii "s3cret") (ascii "X-Guardian-Token: s3cret") (by decide) (by decide)

theorem postRun_guarded_plainPost :
    (([plainPost].Pairwise fun a b => a.now ≤ b.now) ∧
      (∀ minute, [plainPost].countP (·.minute = minute) < 2 ^ 31) ∧
      (∀ post ∈ [plainPost], PlainHeaders post.req)) ∧
    MutationsGuarded (postRun worldLayers {} [plainPost]).log := by
  have ordered : [plainPost].Pairwise fun a b => a.now ≤ b.now := pairwise_singleton _ _
  have few : ∀ minute, [plainPost].countP (·.minute = minute) < 2 ^ 31 :=
    fun minute => List.countP_le_length.trans_lt (by decide)
  have plain : ∀ post ∈ [plainPost], PlainHeaders post.req := by
    intro post inPosts
    rw [List.mem_singleton.mp inPosts]
    decide +kernel
  exact ⟨⟨ordered, few, plain⟩, postRun_guarded worldLayers {} ordered few plain⟩

theorem nul_not_mem_replicate (n : ℕ) : (0 : UInt8) ∉ List.replicate n 97 := by
  intro inToken
  exact absurd (eq_of_mem_replicate inToken) (by decide)

def longTokenPost : PostRequest :=
  bannedWith (List.replicate 255 97) (ascii "X-Guardian-Token: " ++ List.replicate 256 97)
    (nul_not_mem_replicate 255)
    (fun inHeader => (List.mem_append.mp inHeader).elim (by decide) (nul_not_mem_replicate 256))

/-- The pipeline is called for a request that does not carry the token. -/
theorem postRun_longToken_called :
    (postRun worldLayers {} [longTokenPost]).log.map (fun entry => entry.2.map (·.ip)) =
        [some (ascii "198.51.100.7")] ∧
      longTokenPost.requiredToken = some (List.replicate 255 97) ∧
      ¬CarriesToken longTokenPost.req (List.replicate 255 97) ∧
      ¬MutationsGuarded (postRun worldLayers {} [longTokenPost]).log := by
  have required : longTokenPost.requiredToken = some (replicate 255 97) := by decide +kernel
  have uncarried : ¬CarriesToken longTokenPost.req (replicate 255 97) := by decide +kernel
  refine ⟨by decide +kernel, required, uncarried, ?_⟩
  intro guarded
  have reached : ((postRun worldLayers {} [longTokenPost]).log.map (·.2.isSome)) = [true] := by
    decide +kernel
  rcases guarded.authentic _ (mem_singleton_self _) (List.cons.inj reached).1 with
    ⟨token, expected, carried⟩
  rw [show token = replicate 255 97 from Option.some.inj (expected.symm.trans required)] at carried
  exact uncarried carried

end LogGuardian
