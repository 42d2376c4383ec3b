import LogGuardian.Ban.Pipeline
import LogGuardian.Lib.Machine
import LogGuardian.Lib.Tokens

/-!
# Applying threat feeds

`apply_ioc` bans an address of a feed and writes a line to the audit file.
-/

namespace LogGuardian

open List

universe u

/-- The settings that a call reads: `g_allow_ban`, `use_ban_pipeline`, and whether the audit file
opens. -/
structure FeedMode where
  allowBan : Bool
  useBanPipeline : Bool
  auditOpens : Bool
  deriving DecidableEq, Repr

structure IocCall where
  ip : Bytes
  provider : Bytes
  mode : FeedMode
  whitelist : Bytes → Bool

structure IocAudit where
  ip : Bytes
  provider : Bytes
  path : Bytes
  applied : Bool
  deriving DecidableEq, Repr

structure FeedState (State : Type u) where
  applied : ℕ
  skipWl : ℕ
  failed : ℕ
  layers : State

structure IocResult (State : Type u) where
  audit : Option IocAudit
  log : List (Request × Bool)
  state : FeedState State

def bump (counter : ℕ) : ℕ := (counter + 1) % 2 ^ 64

def banPathLabel : BanPath → Bytes
  | .ipcXdp => ascii "ipc-xdp"
  | .xdpDirect => ascii "xdp"
  | .ipset => ascii "ipset"
  | .whitelistSkip => ascii "whitelist-skip"
  | .invalidIp => ascii "invalid"
  | .failed => ascii "failed"

def auditIoc (call : IocCall) (path : Bytes) (applied : Bool) : Option IocAudit :=
  if call.mode.auditOpens then some ⟨call.ip, call.provider, path, applied⟩ else none

section Apply

variable {State : Type u} (layers : Layers State)

/-- The request of `apply_ioc` to the daemon when it does without the pipeline. -/
def iocRequest (ip : Bytes) : Request :=
  .ipc (if chr ':' ∈ ip then daemonIpcBanIpv6 ip else daemonIpcBanIpv4 ip)

def applyIoc (state : FeedState State) (call : IocCall) : IocResult State :=
  if isValidIp call.ip = false then ⟨none, [], state⟩
  else if call.mode.allowBan = false then
    ⟨auditIoc call (ascii "dry-run") true, [], { state with applied := bump state.applied }⟩
  else if call.mode.useBanPipeline then
    let ban := banPipelineBan layers call.whitelist call.ip state.layers
    if ban.rc = 0 then
      if ban.path = .whitelistSkip then
        ⟨auditIoc call (banPathLabel ban.path) false, ban.log,
          { state with skipWl := bump state.skipWl, layers := ban.state }⟩
      else
        ⟨auditIoc call (banPathLabel ban.path) true, ban.log,
          { state with applied := bump state.applied, layers := ban.state }⟩
    else
      ⟨auditIoc call (banPathLabel ban.path) false, ban.log,
        { state with failed := bump state.failed, layers := ban.state }⟩
  else
    let ban := Attempt.once layers.send (iocRequest call.ip) state.layers
    let counted :=
      if ban.ok then { state with applied := bump state.applied, layers := ban.state }
      else { state with failed := bump state.failed, layers := ban.state }
    ⟨auditIoc call (ascii "ipc") (0 < counted.applied), ban.log, counted⟩

/-- A line that says `applied` exactly if a ban was accepted in its call or nothing is banned at
all. -/
def IocResult.Truthful (call : IocCall) (result : IocResult State) : Prop :=
  ∀ line, result.audit = some line →
    (line.applied = true ↔ call.mode.allowBan = false ∨ Attempt.Accepted result.log)

def feedStep (state : FeedState State) (call : IocCall) : FeedState State :=
  (applyIoc layers state call).state

def feedResults : FeedState State → List IocCall → List (IocCall × IocResult State)
  | _, [] => []
  | state, call :: rest =>
    (call, applyIoc layers state call) :: feedResults (feedStep layers state call) rest

/-- The counter that the line is made from says what the call does: without the pipeline, it was
zero before a ban that is refused, and an accepted one does not bring it back to zero. -/
def CounterTells (state : FeedState State) (call : IocCall) : Prop :=
  isValidIp call.ip = true → call.mode = ⟨true, false, true⟩ →
    if (layers.send (iocRequest call.ip) state.layers).1 then bump state.applied ≠ 0
    else state.applied = 0

variable {layers}

variable {call : IocCall} {path : Bytes} {applied : Bool} {state : FeedState State}

theorem auditIoc_eq_some {line : IocAudit} (isLine : auditIoc call path applied = some line) :
    line.applied = applied := by
  unfold auditIoc at isLine
  split at isLine
  · rw [← Option.some.inj isLine]
  · cases isLine

theorem path_eq_whitelistSkip_iff (whitelist : Bytes → Bool) (ip : Bytes) (state : State) :
    (banPipelineBan layers whitelist ip state).path = .whitelistSkip ↔
      isValidIp ip = true ∧ (whitelist ip = true ∨ isReservedBanTarget ip = true) := by
  unfold banPipelineBan
  rcases isValidIp ip with _ | _
  · simp
  · rcases whitelist ip with _ | _
    · rcases isReservedBanTarget ip with _ | _
      · simp only [Bool.not_true, Bool.false_eq_true, or_self, and_false, iff_false]
        split_ifs <;> exact not_false
      · simp
    · simp

theorem accepted_banPipelineBan (whitelist : Bytes → Bool) (ip : Bytes) (state : State) :
    Attempt.Accepted (banPipelineBan layers whitelist ip state).log ↔
      (banPipelineBan layers whitelist ip state).rc = 0 ∧
        (banPipelineBan layers whitelist ip state).path ≠ .whitelistSkip := by
  have skips := @path_eq_whitelistSkip_iff State layers whitelist ip state
  rcases banPipelineBan_eq layers whitelist ip state with
    ⟨-, isBan⟩ | ⟨-, -, isBan⟩ | ⟨-, notListed, notReserved, isLog, isOk⟩
  · simp [isBan, Attempt.Accepted]
  · simp [isBan, Attempt.Accepted]
  · have honest : _ ↔ Attempt.Accepted _ := honest_tryLayers layers ip state
    rw [isLog, ← honest, ← isOk, Ne, skips, notListed, notReserved]
    simp

theorem truthful_of_accepted {log : List (Request × Bool)} (bans : call.mode.allowBan = true)
    (tells : applied = true ↔ Attempt.Accepted log) :
    IocResult.Truthful call ⟨auditIoc call path applied, log, state⟩ := by
  intro line isLine
  rw [auditIoc_eq_some isLine, tells, bans]
  simp

theorem truthful_pipeline (valid : isValidIp call.ip = true) (bans : call.mode.allowBan = true)
    (pipeline : call.mode.useBanPipeline = true) : (applyIoc layers state call).Truthful call := by
  have accepted := @accepted_banPipelineBan State layers call.whitelist call.ip state.layers
  unfold applyIoc
  simp only [valid, bans, Bool.true_eq_false, if_false]
  split_ifs with returned skipped
  · apply truthful_of_accepted bans
    simp [accepted, skipped]
  · apply truthful_of_accepted bans
    simp [accepted, returned, skipped]
  · apply truthful_of_accepted bans
    simp [accepted, returned]

theorem truthful_ipc_iff (valid : isValidIp call.ip = true) (mode : call.mode = ⟨true, false, true⟩) :
    (applyIoc layers state call).Truthful call ↔
      if (layers.send (iocRequest call.ip) state.layers).1 then bump state.applied ≠ 0
      else state.applied = 0 := by
  unfold applyIoc IocResult.Truthful auditIoc
  simp only [valid, mode, Attempt.once, Attempt.Accepted]
  by_cases answer : (layers.send (iocRequest call.ip) state.layers).1 = true
  · simp [answer, Nat.pos_iff_ne_zero]
  · simp [answer]

theorem truthful_iff (state : FeedState State) (call : IocCall) :
    (applyIoc layers state call).Truthful call ↔ CounterTells layers state call := by
  unfold CounterTells
  rcases valid : isValidIp call.ip with _ | _
  · simp [IocResult.Truthful, applyIoc, valid]
  by_cases ipc : call.mode = ⟨true, false, true⟩
  · simpa [ipc] using truthful_ipc_iff valid ipc
  · have truthful : (applyIoc layers state call).Truthful call := by
      rcases mode : call.mode with ⟨_ | _, pipeline, opens⟩
      · intro line isLine
        simp only [applyIoc, valid, mode] at isLine
        simp [auditIoc_eq_some isLine, mode]
      · rcases pipeline with _ | _
        · have closed : opens = false := by
            rcases opens with _ | _
            · rfl
            · exact absurd mode ipc
          simp [IocResult.Truthful, applyIoc, auditIoc, valid, mode, closed]
        · exact truthful_pipeline valid (by rw [mode]) (by rw [mode])
    simp [ipc, truthful]

theorem truthful_feedResults_iff (state : FeedState State) (calls : List IocCall) :
    (∀ entry ∈ feedResults layers state calls, entry.2.Truthful entry.1) ↔
      Machine.Guarded (feedStep layers) (CounterTells layers) state calls := by
  induction calls generalizing state with
  | nil => simp [feedResults, Machine.Guarded]
  | cons call rest ih => rw [feedResults, forall_mem_cons, truthful_iff, ih, Machine.Guarded]

end Apply

/-- `looks_like_ipv4`, with the dots and the digits since the last one. -/
def looksLikeLoop : Bytes → ℕ → ℕ → Bool
  | [], dots, _ => dots = 3
  | byte :: rest, dots, digits =>
    if byte = chr '.' then looksLikeLoop rest (dots + 1) 0
    else if isDigit byte then
      if 3 < digits + 1 then false else looksLikeLoop rest dots (digits + 1)
    else false

def looksLikeIpv4 (text : Bytes) : Bool := looksLikeLoop text 0 0

/-- The separators of `strtok`. -/
def isFeedSeparator (byte : UInt8) : Bool := byte ∈ ascii " \t\n\r,;"

def feedTokens (text : Bytes) : List Bytes := Tokens.tokens isFeedSeparator text

/-- The loop over the tokens: those that are passed to `apply_ioc`. -/
def plainPassed : ℤ → List Bytes → List Bytes
  | _, [] => []
  | limit, token :: rest =>
    if 0 < limit then
      if looksLikeIpv4 token then token :: plainPassed (limit - 1) rest else plainPassed limit rest
    else []

/-- The addresses that `parse_plain_ips` passes on. -/
def plainAddresses (limit : ℤ) (data : Bytes) : List Bytes :=
  plainPassed limit (feedTokens (copyInto 65536 data))

/-- `parse_plain_ips`: the calls in the order of the tokens. -/
def parsePlainIps {State : Type u} (layers : Layers State) (mode : FeedMode) (whitelist : Bytes → Bool)
    (provider : Bytes) (limit : ℤ) (data : Bytes) (state : FeedState State) : FeedState State :=
  Machine.run (feedStep layers) state
    ((plainAddresses limit data).map fun ip => ⟨ip, provider, mode, whitelist⟩)

/-- The part of the text that is read does not end in a part of a token that is taken for an
address. -/
def PlainCut (limit : ℤ) (data : Bytes) : Prop :=
  (∀ byte ∈ (data.drop 65535).head?, isFeedSeparator byte = true) ∨
    looksLikeIpv4 (Tokens.unfinished isFeedSeparator (data.take 65535)) = false ∨
    limit ≤ ((Tokens.ended isFeedSeparator (data.take 65535)).countP looksLikeIpv4 : ℕ) ∨
    Tokens.unfinished isFeedSeparator (data.take 65535) ∈ feedTokens data

theorem plainPassed_eq (limit : ℤ) (tokens : List Bytes) :
    plainPassed limit tokens = (tokens.filter looksLikeIpv4).take limit.toNat := by
  induction tokens generalizing limit with
  | nil => simp [plainPassed]
  | cons token rest ih =>
    by_cases positive : 0 < limit
    · obtain ⟨count, isCount⟩ : ∃ count, limit.toNat = count + 1 := ⟨limit.toNat - 1, by omega⟩
      have rest : (limit - 1).toNat = count := by omega
      by_cases looks : looksLikeIpv4 token = true
      · simp [plainPassed, positive, looks, ih, isCount]
      · simp [plainPassed, positive, looks, ih]
    · have none : limit.toNat = 0 := by omega
      simp [plainPassed, positive, none]

theorem filter_feedTokens (text : Bytes) : (feedTokens text).filter looksLikeIpv4 =
    (Tokens.ended isFeedSeparator text).filter looksLikeIpv4 ++
      [Tokens.unfinished isFeedSeparator text].filter looksLikeIpv4 := by
  have nonempty : ∀ piece : Bytes, (looksLikeIpv4 piece && !piece.isEmpty) = looksLikeIpv4 piece := by
    intro piece
    rcases piece with _ | ⟨byte, rest⟩
    · rfl
    · simp
  rw [feedTokens, Tokens.tokens_eq_ended, filter_append]
  simp [nonempty]

theorem plainAddresses_eq (limit : ℤ) (data : Bytes) : plainAddresses limit data =
    ((Tokens.ended isFeedSeparator (data.take 65535)).filter looksLikeIpv4 ++
      [Tokens.unfinished isFeedSeparator (data.take 65535)].filter looksLikeIpv4).take limit.toNat := by
  rw [plainAddresses, plainPassed_eq, filter_feedTokens]
  rfl

theorem mem_feedTokens_of_ended {data address : Bytes}
    (mem : address ∈ (Tokens.ended isFeedSeparator (data.take 65535)).filter looksLikeIpv4) :
    address ∈ feedTokens data := by
  rcases List.mem_filter.mp mem with ⟨isEnded, looks⟩
  have nonempty : (!address.isEmpty) = true := by
    rcases address with _ | ⟨byte, rest⟩
    · cases looks
    · rfl
  have whole := Tokens.mem_tokens_append_of_ended (data.drop 65535)
    (List.mem_filter.mpr ⟨isEnded, nonempty⟩)
  rwa [take_append_drop] at whole

theorem plainAddresses_complete_iff (limit : ℤ) (data : Bytes) :
    (∀ address ∈ plainAddresses limit data, address ∈ feedTokens data) ↔ PlainCut limit data := by
  rw [plainAddresses_eq]
  have count : (Tokens.ended isFeedSeparator (data.take 65535)).countP looksLikeIpv4 =
      ((Tokens.ended isFeedSeparator (data.take 65535)).filter looksLikeIpv4).length :=
    countP_eq_length_filter
  constructor
  · intro complete
    by_cases few : limit ≤ ((Tokens.ended isFeedSeparator (data.take 65535)).countP looksLikeIpv4 : ℕ)
    · exact .inr (.inr (.inl few))
    rcases looks : looksLikeIpv4 (Tokens.unfinished isFeedSeparator (data.take 65535)) with _ | _
    · exact .inr (.inl looks)
    · right
      right
      right
      apply complete
      rw [filter_cons_of_pos looks, take_of_length_le (by simp; omega)]
      exact mem_append_right _ mem_cons_self
  · intro plain address mem
    rcases List.mem_append.mp (mem_of_mem_take mem) with isEnded | isOpen
    · exact mem_feedTokens_of_ended isEnded
    · rcases List.mem_filter.mp isOpen with ⟨isUnfinished, looks⟩
      rw [List.mem_singleton.mp isUnfinished] at looks ⊢
      rcases plain with stops | notLooks | few | isToken
      · have nonempty : Tokens.unfinished isFeedSeparator (data.take 65535) ≠ [] := by
          intro empty
          rw [empty] at looks
          cases looks
        have whole := Tokens.unfinished_mem_tokens_append nonempty stops
        rwa [take_append_drop] at whole
      · rw [notLooks] at looks
        cases looks
      · rw [take_append_of_le_length (by omega)] at mem
        rw [← List.mem_singleton.mp isUnfinished]
        exact mem_feedTokens_of_ended (mem_of_mem_take mem)
      · exact isToken

/-- A plain feed passes whole tokens on exactly if its cut is plain, and the audit of any calls
tells the truth exactly if in each the counter does. -/
theorem feed_truthful_iff {State : Type u} (layers : Layers State) (limit : ℤ) (data : Bytes)
    (state : FeedState State) (calls : List IocCall) :
    ((∀ address ∈ plainAddresses limit data, address ∈ feedTokens data) ↔ PlainCut limit data) ∧
      ((∀ entry ∈ feedResults layers state calls, entry.2.Truthful entry.1) ↔
        Machine.Guarded (feedStep layers) (CounterTells layers) state calls) :=
  ⟨plainAddresses_complete_iff limit data, truthful_feedResults_iff state calls⟩

def longFeed : Bytes := List.replicate 65528 (chr ' ') ++ ascii "1.2.3.45"

theorem tokens_blanks (count : ℕ) {word : Bytes} (nonempty : word ≠ [])
    (plain : ∀ byte ∈ word, isFeedSeparator byte = false) :
    feedTokens (List.replicate count (chr ' ') ++ word) = [word] := by
  have blanks : ∀ byte ∈ replicate count (chr ' '), isFeedSeparator byte = true := by
    intro byte mem
    rw [eq_of_mem_replicate mem]
    decide
  rw [feedTokens, Tokens.tokens_append_of_separators blanks, Tokens.tokens_of_plain nonempty plain]

def answering : Layers (List Bool) where
  ipcFd _ := false
  xdpActive _ := false
  xdpMapV4 _ := false
  xdpMapV6 _ := false
  send _ answers := (answers.headD false, answers.tail)

def ipcCall (ip : Bytes) : IocCall := ⟨ip, ascii "plain", ⟨true, false, true⟩, fun _ => false⟩

/-- The first part of an address is passed on, and a refused ban is called applied behind an
accepted one. -/
theorem feed_misleads :
    feedTokens longFeed = [ascii "1.2.3.45"] ∧ plainAddresses 50000 longFeed = [ascii "1.2.3.4"] ∧
      (feedResults answering ⟨0, 0, 0, [true]⟩ [ipcCall (ascii "1.2.3.4"), ipcCall (ascii "5.6.7.8")]).map
          (fun entry => (entry.2.audit, entry.2.log.map Prod.snd)) =
        [(some ⟨ascii "1.2.3.4", ascii "plain", ascii "ipc", true⟩, [true]),
          (some ⟨ascii "5.6.7.8", ascii "plain", ascii "ipc", true⟩, [false])] := by
  have cut : copyInto 65536 longFeed = replicate 65528 (chr ' ') ++ ascii "1.2.3.4" := by
    rw [copyInto, longFeed, take_append, take_replicate, length_replicate]
    rfl
  refine ⟨tokens_blanks _ (by decide) (by decide +kernel), ?_, by decide +kernel⟩
  rw [plainAddresses, cut, tokens_blanks _ (by decide) (by decide +kernel)]
  decide

end LogGuardian
