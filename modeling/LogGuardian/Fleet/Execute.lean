import LogGuardian.Ban.Unban
import LogGuardian.Fleet.Agent
import LogGuardian.Fleet.Stored
import LogGuardian.Lib.Tokens
import LogGuardian.Waf.Rules

/-!
# Executing and acknowledging commands

The handlers of `process_commands` set one flag, which `fleet_ack_command` reports. For each type of
command the report is compared with what the handler did to the state.
-/

namespace LogGuardian

open List

structure ExecEnv where
  url : Bytes
  whitelist : Bytes → Bool
  schemaLoads : Bytes → Bool
  wasmLoads : Bytes → Bool

structure ExecState where
  world : World
  waf : WafConfig
  overlay : OverlayState
  schemas : List Bytes
  plugins : List Bytes

/-- `cmd_ok` and `ack_detail`, the ban calls with their requests, and the state. -/
structure ExecOutcome where
  ok : Bool
  detail : Bytes
  bans : List (Bytes × List (Request × Bool))
  state : ExecState

def fleetPathAllowed (path : Bytes) : Bool :=
  path ≠ [] && !hasLit path (ascii "..") &&
    (ascii "/etc/log-guardian/" <+: path ||
      (path.head? ≠ some (chr '/') && path.head? ≠ some (chr '.')))

/-- A `%s` of `sscanf` with its width: the word and the text behind it. -/
def scanfWord (width : ℕ) (text : Bytes) : Option (Bytes × Bytes) :=
  let trimmed := text.dropWhile isSpace
  let word := (trimmed.takeWhile (!isSpace ·)).take width
  if word = [] then none else some (word, trimmed.drop word.length)

/-- `sscanf(payload, "%*s %63s %d")` where it returns 2. -/
def scanWafPush (payload : Bytes) : Option (Bytes × ℤ) :=
  match scanfWord payload.length payload with
  | none => none
  | some (_, rest) =>
    match scanfWord 63 rest with
    | none => none
    | some (key, rest) => if (strtolSplit rest).isSome then some (key, atoi rest) else none

inductive WafKey where
  | banThreshold | lfi | ssrf | xss | shellcmd | enabled
  deriving DecidableEq, Repr

def wafKey (key : Bytes) : Option WafKey :=
  if key = ascii "ban_threshold" then some .banThreshold
  else if key = ascii "lfi" then some .lfi
  else if key = ascii "ssrf" then some .ssrf
  else if key = ascii "xss" then some .xss
  else if key = ascii "shellcmd" then some .shellcmd
  else if key = ascii "enabled" then some .enabled
  else none

def WafKey.set (val : ℤ) (cfg : WafConfig) : WafKey → WafConfig
  | .banThreshold => { cfg with banThreshold := val }
  | .lfi => { cfg with lfiEnabled := val ≠ 0 }
  | .ssrf => { cfg with ssrfEnabled := val ≠ 0 }
  | .xss => { cfg with xssEnabled := val ≠ 0 }
  | .shellcmd => { cfg with shellcmdEnabled := val ≠ 0 }
  | .enabled => { cfg with enabled := val ≠ 0 }

/-- The configuration has the value under the key. -/
def WafKey.Holds (val : ℤ) (cfg : WafConfig) : WafKey → Prop
  | .banThreshold => cfg.banThreshold = val
  | .lfi => cfg.lfiEnabled = (val ≠ 0)
  | .ssrf => cfg.ssrfEnabled = (val ≠ 0)
  | .xss => cfg.xssEnabled = (val ≠ 0)
  | .shellcmd => cfg.shellcmdEnabled = (val ≠ 0)
  | .enabled => cfg.enabled = (val ≠ 0)

def isFleetSeparator (byte : UInt8) : Bool := byte ∈ ascii " ,\t\n"

def feedList (payload : Bytes) : List Bytes := Tokens.tokens isFleetSeparator payload

variable (env : ExecEnv)

def fleetFeed : List Bytes → ExecOutcome → ExecOutcome
  | [], outcome => outcome
  | token :: rest, outcome =>
    if isValidIp token = false then { outcome with ok := false, detail := ascii "invalid ip in feed" }
    else
      let ban := banPipelineBan worldLayers env.whitelist token outcome.state.world
      let banned : ExecOutcome :=
        { outcome with
          bans := outcome.bans ++ [(token, ban.log)]
          state := { outcome.state with world := ban.state } }
      fleetFeed rest
        (if ban.rc = 0 then banned else { banned with ok := false, detail := ascii "ban failed" })

def execute (kind : Option FleetKind) (payload : Bytes) (state : ExecState) : ExecOutcome :=
  match kind with
  | some .banIp =>
    if isValidIp payload = false then ⟨false, ascii "invalid ip", [], state⟩
    else
      let ban := banPipelineBan worldLayers env.whitelist payload state.world
      let after := { state with world := ban.state }
      if ban.rc = 0 then ⟨true, [], [(payload, ban.log)], after⟩
      else ⟨false, ascii "ban pipeline failed", [(payload, ban.log)], after⟩
  | some .pushWafRule =>
    match scanWafPush payload with
    | none => ⟨true, [], [], state⟩
    | some (key, val) =>
      match wafKey key with
      | none => ⟨true, [], [], state⟩
      | some known => ⟨true, [], [], { state with waf := known.set val state.waf }⟩
  | some .pushThreatFeed => fleetFeed env (feedList (copyInto 512 payload)) ⟨true, [], [], state⟩
  | some .pushConfig =>
    let pushed := rulesFleetApplyKv env.schemaLoads payload state.overlay
    let after := { state with overlay := pushed.2 }
    if pushed.1 then ⟨true, [], [], after⟩ else ⟨false, ascii "apply_kv failed", [], after⟩
  | some .pushSchema =>
    if payload = [] then ⟨true, [], [], state⟩
    else if fleetPathAllowed payload = false then ⟨false, ascii "path denied", [], state⟩
    else if env.schemaLoads payload then
      ⟨true, [], [], { state with schemas := payload :: state.schemas }⟩
    else ⟨false, ascii "schema load failed", [], state⟩
  | some .pushWasmPlugin =>
    if payload = [] then ⟨true, [], [], state⟩
    else if fleetPathAllowed payload = false ∨ hasLit payload (ascii "/plugins/") = false then
      ⟨false, ascii "wasm path denied", [], state⟩
    else if env.wasmLoads payload then
      ⟨true, [], [], { state with plugins := payload :: state.plugins }⟩
    else ⟨false, ascii "wasm load failed", [], state⟩
  | some .unbanIp =>
    if isValidIp payload = false then ⟨false, ascii "invalid ip", [], state⟩
    else
      let unban := banPipelineUnban worldLayers payload state.world
      let after := { state with world := unban.2 }
      if unban.1 = 0 then ⟨true, [], [], after⟩ else ⟨false, ascii "unban failed", [], after⟩
  | none => ⟨false, ascii "unknown command", [], state⟩

/-- The URL to which `fleet_ack_command` posts: that of the telemetry with another path. -/
def ackUrl (url : Bytes) : Option Bytes :=
  let copied := copyInto 640 url
  (Search.find (ascii "/telemetry") copied).map fun position =>
    copied.take position ++ copyInto (640 - position) (ascii "/fleet/commands/ack")

/-- `fleet_ack_command`: URL, status and detail, unless there is no id, no server or no telemetry. -/
def fleetAck (run : FleetRun) (outcome : ExecOutcome) : Option (Bytes × Bytes × Bytes) :=
  if run.id = [] ∨ env.url = [] then none
  else (ackUrl env.url).map fun url =>
    (url, if outcome.ok then ascii "executed" else ascii "failed", outcome.detail)

/-- The command has an id, and the URL is that of the telemetry. -/
def Acknowledged (run : FleetRun) : Prop :=
  run.id ≠ [] ∧ ascii "/telemetry" <:+: copyInto 640 env.url

instance (run : FleetRun) : Decidable (Acknowledged env run) :=
  inferInstanceAs (Decidable (_ ∧ _))

/-- The calls banned these addresses, one after the other, and no others: each was accepted by a
layer and asked the layers for its address only. -/
def BannedAll (ips : List Bytes) (bans : List (Bytes × List (Request × Bool))) : Prop :=
  bans.map Prod.fst = ips ∧ ∀ ban ∈ bans, Attempt.Accepted ban.2 ∧
    ∀ entry ∈ ban.2, entry.1.banBlock = hostBlock ban.1

/-- The whole effect of a command took place. -/
def TookPlace (kind : Option FleetKind) (payload : Bytes) (before : ExecState)
    (outcome : ExecOutcome) : Prop :=
  match kind with
  | some .banIp => BannedAll [payload] outcome.bans
  | some .pushThreatFeed => BannedAll (feedList payload) outcome.bans
  | some .unbanIp => ∃ address, denotes payload = some address ∧
      ¬outcome.state.world.Matches address ∧
      ∀ other ≠ address, outcome.state.world.Matches other ↔ before.world.Matches other
  | some .pushWafRule => ∃ rule key, scanWafPush payload = some rule ∧ wafKey rule.1 = some key ∧
      key.Holds rule.2 outcome.state.waf
  | some .pushConfig => ∃ entry, pushedEntry payload = some entry ∧
      entry ∈ overlayMapping outcome.state.overlay.file
  | some .pushSchema => outcome.state.schemas = payload :: before.schemas
  | some .pushWasmPlugin => outcome.state.plugins = payload :: before.plugins
  | none => False

/-- The command is acknowledged as executed exactly if its whole effect took place. -/
def AckTruthful (run : FleetRun) (state : ExecState) : Prop :=
  (∃ url detail, fleetAck env run (execute env run.kind run.payload state) =
      some (url, ascii "executed", detail)) ↔
    TookPlace run.kind run.payload state (execute env run.kind run.payload state)

/-- A valid address that the pipeline skips. -/
def Skipped (ip : Bytes) : Prop := env.whitelist ip = true ∨ isReservedBanTarget ip = true

def FeedRefused : List Bytes → World → Prop
  | [], _ => False
  | ip :: rest, world =>
    (¬Skipped env ip ∧ (tryLayers worldLayers ip world).ok = false) ∨
      FeedRefused rest (banPipelineBan worldLayers env.whitelist ip world).state

/-- A block that is not the address itself keeps it in the set, which the call finds out. -/
def StillListed (world : World) (ip : Bytes) (address : Address) : Prop :=
  world.env.ipset = true ∧
    ∃ block ∈ world.ipset, block.Contains address ∧ some block ≠ hostBlock ip

/-- What a push has to meet: an accepted pair is stored, a refused one is not there already. -/
def PushKept (payload : Bytes) (state : OverlayState) : Prop :=
  if AcceptsPush env.schemaLoads state payload then
    ∀ pair ∈ payloadPair payload, StoresPair pair.1 pair.2 state.file
  else ∀ entry ∈ pushedEntry payload, entry ∉ overlayMapping state.file

def AckCondition (kind : Option FleetKind) (payload : Bytes) (state : ExecState) : Prop :=
  match kind with
  | some .banIp => isValidIp payload = true → ¬Skipped env payload
  | some .pushThreatFeed =>
    (∃ ip ∈ feedList (copyInto 512 payload), isValidIp ip = false) ∨
      FeedRefused env (feedList (copyInto 512 payload)) state.world ∨
      (feedList (copyInto 512 payload) = feedList payload ∧
        ∀ ip ∈ feedList payload, ¬Skipped env ip)
  | some .unbanIp => ∀ address ∈ denotes payload,
      UnbanReaches state.world payload address ∨ StillListed state.world payload address
  | some .pushWafRule => ∃ rule ∈ scanWafPush payload, wafKey rule.1 ≠ none
  | some .pushConfig => PushKept env payload state.overlay
  | some .pushSchema | some .pushWasmPlugin => payload ≠ []
  | none => True

variable {env}

variable {ip payload key val : Bytes} {world : World} {address : Address}
  {schemaLoads : Bytes → Bool} {state : OverlayState}

theorem bannedAll_singleton_iff {whitelist : Bytes → Bool} :
    BannedAll [ip] [(ip, (banPipelineBan worldLayers whitelist ip world).log)] ↔
      Attempt.Accepted (banPipelineBan worldLayers whitelist ip world).log := by
  constructor
  · intro banned
    exact (banned.2 _ mem_cons_self).1
  · intro accepted
    refine ⟨rfl, ?_⟩
    intro ban mem
    rw [List.mem_singleton.mp mem]
    exact ⟨accepted, fun entry sent => (banBlock_banPipelineBan worldLayers sent).2.2⟩

theorem accepted_iff_of_valid {ip : Bytes} (valid : isValidIp ip = true) (world : World) :
    Attempt.Accepted (banPipelineBan worldLayers env.whitelist ip world).log ↔
      (banPipelineBan worldLayers env.whitelist ip world).rc = 0 ∧ ¬Skipped env ip := by
  rcases banPipelineBan_eq worldLayers env.whitelist ip world with
    ⟨invalid, -⟩ | ⟨-, skipped, result⟩ | ⟨-, notListed, notReserved, log, success⟩
  · rw [valid] at invalid
    cases invalid
  · simp [result, Skipped, skipped, Attempt.Accepted]
  · have honest : _ ↔ _ := honest_tryLayers worldLayers ip world
    rw [log, success, honest]
    simp [Skipped, notListed, notReserved]

theorem rc_eq_zero_iff_of_valid {ip : Bytes} (valid : isValidIp ip = true) (world : World) :
    (banPipelineBan worldLayers env.whitelist ip world).rc = 0 ↔
      ¬(¬Skipped env ip ∧ (tryLayers worldLayers ip world).ok = false) := by
  rcases banPipelineBan_eq worldLayers env.whitelist ip world with
    ⟨invalid, -⟩ | ⟨-, skipped, result⟩ | ⟨-, notListed, notReserved, -, success⟩
  · rw [valid] at invalid
    cases invalid
  · simp [result, Skipped, skipped]
  · rw [success]
    simp [Skipped, notListed, notReserved]

theorem ok_fleetFeed_iff (tokens : List Bytes) (outcome : ExecOutcome) :
    (fleetFeed env tokens outcome).ok = true ↔
      outcome.ok = true ∧ (∀ ip ∈ tokens, isValidIp ip = true) ∧
        ¬FeedRefused env tokens outcome.state.world := by
  induction tokens generalizing outcome with
  | nil => simp [fleetFeed, FeedRefused]
  | cons token rest ih =>
    rcases valid : isValidIp token with _ | _
    · simp [fleetFeed, valid]
    · have rc := @rc_eq_zero_iff_of_valid env token valid outcome.state.world
      rw [fleetFeed, if_neg (by simp [valid])]
      rw [ih]
      by_cases success : (banPipelineBan worldLayers env.whitelist token outcome.state.world).rc = 0
      · simp only [success, if_true, forall_mem_cons, valid, true_and, FeedRefused, not_or,
          rc.mp success, not_false_eq_true]
      · have refused := not_not.mp (mt rc.mpr success)
        simp only [success, if_false, Bool.false_eq_true, false_and, FeedRefused, refused,
          true_and, not_true_eq_false, not_false_eq_true, true_or, and_false]

def feedBans (whitelist : Bytes → Bool) : List Bytes → World → List (Bytes × List (Request × Bool))
  | [], _ => []
  | ip :: rest, world =>
    if isValidIp ip then
      (ip, (banPipelineBan worldLayers whitelist ip world).log) ::
        feedBans whitelist rest (banPipelineBan worldLayers whitelist ip world).state
    else []

theorem bans_fleetFeed (tokens : List Bytes) (outcome : ExecOutcome) :
    (fleetFeed env tokens outcome).bans =
      outcome.bans ++ feedBans env.whitelist tokens outcome.state.world := by
  induction tokens generalizing outcome with
  | nil => simp [fleetFeed, feedBans]
  | cons token rest ih =>
    rcases valid : isValidIp token with _ | _
    · simp [fleetFeed, feedBans, valid]
    · rw [fleetFeed, if_neg (by simp [valid])]
      rw [ih]
      split <;> simp [feedBans, valid]

theorem map_fst_feedBans (whitelist : Bytes → Bool) (tokens : List Bytes) (world : World) :
    (feedBans whitelist tokens world).map Prod.fst = tokens.takeWhile isValidIp := by
  induction tokens generalizing world with
  | nil => rfl
  | cons token rest ih =>
    rcases valid : isValidIp token with _ | _ <;> simp [feedBans, valid, ih]

theorem banBlock_feedBans (whitelist : Bytes → Bool) (tokens : List Bytes) (world : World) :
    ∀ ban ∈ feedBans whitelist tokens world,
      ∀ entry ∈ ban.2, entry.1.banBlock = hostBlock ban.1 := by
  induction tokens generalizing world with
  | nil => simp [feedBans]
  | cons token rest ih =>
    unfold feedBans
    split
    · rw [forall_mem_cons]
      exact ⟨fun entry sent => (banBlock_banPipelineBan worldLayers sent).2.2, ih _⟩
    · simp

theorem accepted_feedBans_iff (tokens : List Bytes) (world : World)
    (valid : ∀ ip ∈ tokens, isValidIp ip = true) :
    (∀ ban ∈ feedBans env.whitelist tokens world, Attempt.Accepted ban.2) ↔
      (∀ ip ∈ tokens, ¬Skipped env ip) ∧ ¬FeedRefused env tokens world := by
  induction tokens generalizing world with
  | nil => simp [feedBans, FeedRefused]
  | cons token rest ih =>
    rw [forall_mem_cons] at valid
    rw [feedBans, if_pos valid.1, forall_mem_cons, forall_mem_cons, ih _ valid.2,
      accepted_iff_of_valid valid.1, rc_eq_zero_iff_of_valid valid.1, FeedRefused]
    tauto

theorem valid_of_takeWhile
    (all : (feedList (copyInto 512 payload)).takeWhile isValidIp = feedList payload) :
    feedList (copyInto 512 payload) = feedList payload ∧
      ∀ ip ∈ feedList payload, isValidIp ip = true := by
  have short := @Tokens.length_tokens_le _ isFleetSeparator (payload.take 511) (payload.drop 511)
  rw [take_append_drop] at short
  have part := takeWhile_prefix (l := feedList (copyInto 512 payload)) isValidIp
  have whole : feedList payload = feedList (copyInto 512 payload) := by
    rw [all] at part
    exact part.eq_of_length_le short
  refine ⟨whole.symm, ?_⟩
  intro ip mem
  rw [← all] at mem
  exact mem_takeWhile_imp mem

theorem ack_feed_iff (payload : Bytes) (state : ExecState) :
    ((execute env (some .pushThreatFeed) payload state).ok = true ↔
        TookPlace (some .pushThreatFeed) payload state
          (execute env (some .pushThreatFeed) payload state)) ↔
      AckCondition env (some .pushThreatFeed) payload state := by
  have bans := @bans_fleetFeed env (feedList (copyInto 512 payload)) ⟨true, [], [], state⟩
  have names := map_fst_feedBans env.whitelist (feedList (copyInto 512 payload)) state.world
  have hosts := banBlock_feedBans env.whitelist (feedList (copyInto 512 payload)) state.world
  simp only [nil_append] at bans
  simp only [execute, TookPlace, BannedAll, bans, names, ok_fleetFeed_iff, true_and]
  constructor
  · intro truthful
    by_cases valid : ∀ ip ∈ feedList (copyInto 512 payload), isValidIp ip = true
    · by_cases refused : FeedRefused env (feedList (copyInto 512 payload)) state.world
      · exact Or.inr (Or.inl refused)
      · rcases truthful.mp ⟨valid, refused⟩ with ⟨all, accepted⟩
        have whole := (valid_of_takeWhile all).1
        have each := (accepted_feedBans_iff _ state.world valid).mp fun ban mem => (accepted ban mem).1
        rw [whole] at each
        exact Or.inr (Or.inr ⟨whole, each.1⟩)
    · simp only [not_forall, Bool.not_eq_true] at valid
      rcases valid with ⟨ip, mem, invalid⟩
      exact Or.inl ⟨ip, mem, invalid⟩
  · intro condition
    constructor
    · rintro ⟨valid, accepted⟩
      rcases condition with ⟨ip, mem, invalid⟩ | refused | ⟨whole, spared⟩
      · rw [valid ip mem] at invalid
        cases invalid
      · exact absurd refused accepted
      · have all : (feedList (copyInto 512 payload)).takeWhile isValidIp =
            feedList (copyInto 512 payload) := List.takeWhile_eq_self_iff.mpr valid
        rw [← whole] at spared
        have each := (accepted_feedBans_iff _ state.world valid).mpr ⟨spared, accepted⟩
        exact ⟨all.trans whole, fun ban mem => ⟨each ban mem, hosts ban mem⟩⟩
    · rintro ⟨all, accepted⟩
      rcases valid_of_takeWhile all with ⟨whole, valid⟩
      rw [← whole] at valid
      refine ⟨valid, ?_⟩
      exact ((accepted_feedBans_iff _ state.world valid).mp fun ban mem => (accepted ban mem).1).2

theorem ack_ban_iff (payload : Bytes) (state : ExecState) :
    ((execute env (some .banIp) payload state).ok = true ↔
        TookPlace (some .banIp) payload state (execute env (some .banIp) payload state)) ↔
      AckCondition env (some .banIp) payload state := by
  rcases valid : isValidIp payload with _ | _
  · simp [execute, TookPlace, AckCondition, BannedAll, valid]
  · have accepted := @accepted_iff_of_valid env payload valid state.world
    simp only [execute, TookPlace, AckCondition, valid, Bool.true_eq_false, if_false]
    by_cases success : (banPipelineBan worldLayers env.whitelist payload state.world).rc = 0
    · rw [if_pos success]
      rw [bannedAll_singleton_iff, accepted]
      simp [success]
    · rw [if_neg success]
      rw [bannedAll_singleton_iff, accepted]
      have spared := ((@rc_eq_zero_iff_of_valid env payload valid state.world).not.mp success)
      rw [not_not] at spared
      simp [success, spared.1]

theorem denotes_of_isValidIp (valid : isValidIp ip = true) :
    ∃ address, denotes ip = some address := by
  unfold denotes
  rcases parsed : inetPton4 ip with _ | bits
  · have other : (inetPton6 ip).isSome = true := by simpa [isValidIp, parsed] using valid
    rcases Option.isSome_iff_exists.mp other with ⟨bytes, isBytes⟩
    simp [isBytes]
  · simp

theorem isValidIp_of_denotes (means : denotes ip = some address) :
    isValidIp ip = true := by
  unfold denotes at means
  rcases parsed : inetPton4 ip with _ | bits
  · rw [parsed] at means
    simp only [Option.map_eq_some_iff] at means
    rcases means with ⟨bytes, isBytes, -⟩
    simp [isValidIp, isBytes]
  · simp [isValidIp, parsed]

theorem matches_unban_of_ne {ip : Bytes} {address other : Address} (means : denotes ip = some address)
    (different : other ≠ address) (world : World) :
    (banPipelineUnban worldLayers ip world).2.Matches other ↔ world.Matches other := by
  have valid := isValidIp_of_denotes means
  rcases hostBlock_of_isValidIp valid with ⟨host, named⟩
  have outside : ¬host.Contains other := by
    intro contains
    have same := denotes_of_hostBlock valid named contains
    rw [means] at same
    exact different (Option.some.inj same).symm
  rw [banPipelineUnban_world valid named, unbanXdp_world valid named]
  unfold World.Matches
  rw [CoverStore.covered_delete_if outside, CoverStore.covered_delete_if outside,
    CoverStore.covered_delete_if outside, CoverStore.covered_delete_if outside]

theorem covered_after_unban_iff (means : denotes ip = some address)
    (usable : world.env.ipset = true) :
    CoverStore.Covered Block.Contains (banPipelineUnban worldLayers ip world).2.ipset address ↔
      ∃ block ∈ world.ipset, block.Contains address ∧ some block ≠ hostBlock ip := by
  have valid := isValidIp_of_denotes means
  rcases hostBlock_of_isValidIp valid with ⟨host, named⟩
  rw [banPipelineUnban_world valid named, unbanXdp_world valid named, named]
  dsimp only
  rw [if_pos usable]
  simp only [CoverStore.Covered, CoverStore.mem_delete, ne_eq, Option.some.injEq]
  constructor
  · rintro ⟨block, ⟨mem, other⟩, contains⟩
    refine ⟨block, ?_, contains, other⟩
    split at mem
    · exact ((CoverStore.mem_delete block).mp mem).1
    · exact mem
  · rintro ⟨block, mem, contains, other⟩
    refine ⟨block, ⟨?_, other⟩, contains⟩
    split
    · exact (CoverStore.mem_delete block).mpr ⟨mem, other⟩
    · exact mem

theorem unban_fails_iff (means : denotes ip = some address) (world : World) :
    (banPipelineUnban worldLayers ip world).1 ≠ 0 ↔ StillListed world ip address := by
  rcases usable : world.env.ipset with _ | _
  · have valid := isValidIp_of_denotes means
    rcases hostBlock_of_isValidIp valid with ⟨host, named⟩
    rw [banPipelineUnban_world valid named]
    simp [StillListed, usable]
  · rw [StillListed, ← covered_after_unban_iff means usable]
    have valid := isValidIp_of_denotes means
    rcases hostBlock_of_isValidIp valid with ⟨host, named⟩
    rw [banPipelineUnban_world valid named]
    rw [base_of_denotes valid named means]
    simp [usable]

theorem ack_unban_iff (payload : Bytes) (state : ExecState) :
    ((execute env (some .unbanIp) payload state).ok = true ↔
        TookPlace (some .unbanIp) payload state (execute env (some .unbanIp) payload state)) ↔
      AckCondition env (some .unbanIp) payload state := by
  rcases valid : isValidIp payload with _ | _
  · have nothing : denotes payload = none := by
      rcases means : denotes payload with _ | address
      · rfl
      · rw [isValidIp_of_denotes means] at valid
        cases valid
    simp [execute, TookPlace, AckCondition, valid, nothing]
  · rcases denotes_of_isValidIp valid with ⟨address, means⟩
    have fails := unban_fails_iff means state.world
    have others := fun other different => @matches_unban_of_ne payload address other means different
      state.world
    simp only [execute, TookPlace, AckCondition, valid, Bool.true_eq_false, if_false, means,
      Option.some.injEq, exists_eq_left', Option.mem_def, forall_eq']
    by_cases success : (banPipelineUnban worldLayers payload state.world).1 = 0
    · have reaches := not_matches_iff means success
      have notListed : ¬StillListed state.world payload address := fun listed => fails.mpr listed success
      simp only [success, if_true, true_iff, reaches, notListed, or_false]
      exact ⟨fun whole => whole.1, fun reached => ⟨reached, others⟩⟩
    · have listed := fails.mp success
      simp only [success, if_false, Bool.false_eq_true, false_iff, listed, or_true, iff_true]
      rintro ⟨unmatched, -⟩
      exact unmatched (Or.inr (Or.inr ((covered_after_unban_iff means listed.1).mpr listed.2)))

theorem WafKey.holds_set (key : WafKey) (val : ℤ) (cfg : WafConfig) :
    key.Holds val (key.set val cfg) := by
  cases key <;> simp [WafKey.Holds, WafKey.set]

theorem ack_wafRule_iff (payload : Bytes) (state : ExecState) :
    ((execute env (some .pushWafRule) payload state).ok = true ↔
        TookPlace (some .pushWafRule) payload state
          (execute env (some .pushWafRule) payload state)) ↔
      AckCondition env (some .pushWafRule) payload state := by
  rcases scanned : scanWafPush payload with _ | ⟨key, val⟩
  · simp [execute, TookPlace, AckCondition, scanned]
  · rcases known : wafKey key with _ | wafKey
    · simp [execute, TookPlace, AckCondition, scanned, known]
    · have holds := wafKey.holds_set val state.waf
      simp [execute, TookPlace, AckCondition, scanned, known, holds]

theorem ack_schema_iff (payload : Bytes) (state : ExecState) :
    ((execute env (some .pushSchema) payload state).ok = true ↔
        TookPlace (some .pushSchema) payload state (execute env (some .pushSchema) payload state)) ↔
      AckCondition env (some .pushSchema) payload state := by
  unfold execute TookPlace AckCondition
  dsimp only
  split_ifs <;> simp_all

theorem ack_wasm_iff (payload : Bytes) (state : ExecState) :
    ((execute env (some .pushWasmPlugin) payload state).ok = true ↔
        TookPlace (some .pushWasmPlugin) payload state
          (execute env (some .pushWasmPlugin) payload state)) ↔
      AckCondition env (some .pushWasmPlugin) payload state := by
  unfold execute TookPlace AckCondition
  dsimp only
  split_ifs <;> simp_all

theorem key_of_payloadPair (pair : payloadPair payload = some (key, val)) :
    key.dropWhile isBlank = key ∧ key.length ≤ 127 := by
  have bound : ∀ text : Bytes, ((copyInto 128 text).dropWhile isBlank).length ≤ 127 := by
    intro text
    exact ((dropWhile_sublist _).length_le).trans (length_take_le _ _)
  unfold payloadPair at pair
  split_ifs at pair
  · rw [Option.some.injEq, Prod.mk.injEq] at pair
    rw [← pair.1, dropWhile_idempotent]
    exact ⟨rfl, bound _⟩
  · dsimp only at pair
    split_ifs at pair
    rw [Option.some.injEq, Prod.mk.injEq] at pair
    rw [← pair.1, dropWhile_idempotent]
    exact ⟨rfl, bound _⟩

theorem key_ne_nil_of_accepts (pair : payloadPair payload = some (key, val))
    (accepted : AcceptsPush schemaLoads state payload) : key ≠ [] := by
  rintro rfl
  simp [AcceptsPush, rulesFleetApplyKv, pair, applyKeyValue] at accepted

theorem overlay_of_refused (refused : ¬AcceptsPush schemaLoads state payload) :
    (rulesFleetApplyKv schemaLoads payload state).2 = state := by
  unfold AcceptsPush rulesFleetApplyKv applyKeyValue at refused
  unfold rulesFleetApplyKv applyKeyValue
  repeat' split
  all_goals simp_all

theorem ack_config_iff (payload : Bytes) (state : ExecState) :
    ((execute env (some .pushConfig) payload state).ok = true ↔
        TookPlace (some .pushConfig) payload state
          (execute env (some .pushConfig) payload state)) ↔
      AckCondition env (some .pushConfig) payload state := by
  simp only [AckCondition, PushKept, execute]
  by_cases accepted : AcceptsPush env.schemaLoads state.overlay payload
  · have isTrue : (rulesFleetApplyKv env.schemaLoads payload state.overlay).1 = true := accepted
    rcases file_of_acceptsPush accepted with ⟨key, val, pair, file⟩
    have stored := @mem_overlayMapping_iff key val (not_mem_key_of_payloadPair pair)
      (key_of_payloadPair pair).1 (key_ne_nil_of_accepts pair accepted)
      (key_of_payloadPair pair).2 state.overlay.file
    have pushed : pushedEntry payload = some (trimRight isBlank key, val.dropWhile isBlank) := by
      rw [pushedEntry, pair]
      rfl
    rw [← file] at stored
    rw [if_pos accepted, isTrue, if_pos rfl]
    simp only [true_iff, TookPlace, pushed, pair, Option.mem_def, Option.some.injEq, forall_eq',
      exists_eq_left']
    exact stored
  · have isFalse : (rulesFleetApplyKv env.schemaLoads payload state.overlay).1 = false := by
      simpa [AcceptsPush] using accepted
    rw [if_neg accepted]
    simp only [isFalse, Bool.false_eq_true, if_false, false_iff, overlay_of_refused accepted,
      TookPlace]
    push Not
    rfl

theorem executed_iff {run : FleetRun} (outcome : ExecOutcome) :
    (∃ url detail, fleetAck env run outcome = some (url, ascii "executed", detail)) ↔
      Acknowledged env run ∧ outcome.ok = true := by
  have different : ascii "failed" ≠ ascii "executed" := by decide
  have standing : (ackUrl env.url).isSome ↔ ascii "/telemetry" <:+: copyInto 640 env.url := by
    rw [← Search.find_isSome_iff, ackUrl, Option.isSome_map]
  have served : ascii "/telemetry" <:+: copyInto 640 env.url → env.url ≠ [] := by
    intro stands empty
    rw [empty] at stands
    exact absurd stands (by decide)
  unfold fleetAck Acknowledged
  rcases url : ackUrl env.url with _ | url
  · have absent : ¬ascii "/telemetry" <:+: copyInto 640 env.url := by simp [← standing, url]
    simp [absent]
  · have stands := standing.mp (by simp [url])
    rcases outcome.ok with _ | _ <;> simp [different, stands, served stands]

theorem ackTruthful_iff_ok {state : ExecState} {run : FleetRun}
    (acknowledged : Acknowledged env run) : AckTruthful env run state ↔
      ((execute env run.kind run.payload state).ok = true ↔
        TookPlace run.kind run.payload state (execute env run.kind run.payload state)) := by
  rw [AckTruthful, executed_iff, and_iff_right acknowledged]

def plainExecEnv : ExecEnv :=
  ⟨ascii "https://fleet.example/api/telemetry", fun _ => false, fun _ => true, fun _ => true⟩

def plainState : ExecState := ⟨{}, {}, ⟨{}, none⟩, [], []⟩

def plainRun (kind : FleetKind) (payload : Bytes) : FleetRun :=
  ⟨ascii "c1", [], [], payload, [], some kind, true⟩

end LogGuardian
