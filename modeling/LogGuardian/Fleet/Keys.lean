import LogGuardian.Lib.Machine
import LogGuardian.Rules.Conf
import LogGuardian.Fleet.Agent

/-!
# The key of the agent
-/

namespace LogGuardian

/-- The variables `FLEET_COMMAND_HMAC_KEY` and `FLEET_COMMAND_REQUIRE_SIG` of the agent. -/
structure AgentEnv where
  hmacKey : Option Bytes
  requireSig : Option Bytes

def AgentConfig.initial : AgentConfig := ⟨[], false⟩

def fleetHmacLoadEnv (env : AgentEnv) (config : AgentConfig) : AgentConfig :=
  if config.hmacKey ≠ [] then config
  else
    let hmacKey :=
      match env.hmacKey with
      | some value => if 16 ≤ value.length then copyInto 128 value else config.hmacKey
      | none => config.hmacKey
    let requireSig :=
      if config.requireSig then true
      else if env.requireSig = some (ascii "0") then false
      else hmacKey ≠ []
    ⟨hmacKey, requireSig⟩

/-- The two branches of `load_rules_file` that set the key and the demand. -/
def loadFleetRule (env : AgentEnv) (config : AgentConfig) (rule : Bytes × Bytes) : AgentConfig :=
  if rule.1 = ascii "FLEET_COMMAND_HMAC_KEY" then
    if env.hmacKey = none then { config with hmacKey := copyInto 128 rule.2 } else config
  else if rule.1 = ascii "FLEET_COMMAND_REQUIRE_SIG" then
    match ruleNumber rule.2 with
    | some parsed =>
      if env.requireSig = none then { config with requireSig := toCInt parsed ≠ 0 } else config
    | none => config
  else config

/-- Loading a rules file, `agent_sync_init`, and a response of the dashboard. -/
inductive AgentEvent where
  | loadRules (content : Bytes)
  | init
  | process (json : Bytes)

def agentStep (env : AgentEnv) (config : AgentConfig) : AgentEvent → AgentConfig
  | .loadRules content => (rulesEntries content).foldl (loadFleetRule env) config
  | .init => fleetHmacLoadEnv env config
  | .process json =>
    if hasLit json (quotedKey (ascii "commandType")) then fleetHmacLoadEnv env config else config

/-- A number that the file gives for the demand. -/
def Demands (content : Bytes) (parsed : ℤ) : Prop :=
  ∃ val, (ascii "FLEET_COMMAND_REQUIRE_SIG", val) ∈ rulesEntries content ∧
    ruleNumber val = some parsed

def AgentEvent.Disables : AgentEvent → Prop
  | .loadRules content => ∃ parsed, Demands content parsed ∧ toCInt parsed = 0
  | _ => False

def AgentEvent.Enables : AgentEvent → Prop
  | .loadRules content => ∃ parsed, Demands content parsed ∧ toCInt parsed ≠ 0
  | _ => False

/-- The environment has a key that is long enough. -/
def AgentEnv.HasKey (env : AgentEnv) : Prop := ∃ value, env.hmacKey = some value ∧ 16 ≤ value.length

/-- What the configuration is after events that do not disable, some of which may have enabled. -/
structure AgentConfig.Follows (env : AgentEnv) (enabled : Prop) (config : AgentConfig) : Prop where
  demand : config.requireSig = true ↔
    env.requireSig = none ∧ enabled ∨ env.HasKey ∧ config.hmacKey ≠ []
  source : config.hmacKey ≠ [] → env.hmacKey = none ∨ env.HasKey

variable {env : AgentEnv} {enabled : Prop} {config : AgentConfig}

theorem copyInto_ne_nil {capacity : ℕ} {text : Bytes} (room : 2 ≤ capacity) (nonempty : text ≠ []) :
    copyInto capacity text ≠ [] := by
  intro empty
  rcases List.take_eq_nil_iff.mp empty with zero | none
  · omega
  · exact nonempty none

theorem fleetHmacLoadEnv_of_hasKey (has : env.HasKey) (unset : config.hmacKey = [])
    (notZero : env.requireSig ≠ some (ascii "0")) :
    (fleetHmacLoadEnv env config).hmacKey ≠ [] ∧
      (fleetHmacLoadEnv env config).requireSig = true := by
  rcases has with ⟨value, given, long⟩
  have nonempty : copyInto 128 value ≠ [] := by
    apply copyInto_ne_nil (by omega)
    rintro rfl
    simp at long
  simp [fleetHmacLoadEnv, unset, given, long, notZero, nonempty]

theorem fleetHmacLoadEnv_of_not_hasKey (without : ¬env.HasKey) (unset : config.hmacKey = []) :
    fleetHmacLoadEnv env config = config := by
  rcases config with ⟨hmacKey, requireSig⟩
  obtain rfl : hmacKey = [] := unset
  have short : (match env.hmacKey with
      | some value => if 16 ≤ value.length then copyInto 128 value else []
      | none => ([] : Bytes)) = [] := by
    split
    · rename_i value given
      rw [if_neg]
      intro long
      exact without ⟨value, given, long⟩
    · rfl
  simp [fleetHmacLoadEnv, short]

theorem AgentConfig.Follows.loadEnv (follows : config.Follows env enabled)
    (notZero : env.requireSig ≠ some (ascii "0")) :
    (fleetHmacLoadEnv env config).Follows env enabled := by
  by_cases unset : config.hmacKey = []
  · by_cases has : env.HasKey
    · rcases fleetHmacLoadEnv_of_hasKey has unset notZero with ⟨known, demanded⟩
      exact ⟨⟨fun _ => Or.inr ⟨has, known⟩, fun _ => demanded⟩, fun _ => Or.inr has⟩
    · rw [fleetHmacLoadEnv_of_not_hasKey has unset]
      exact follows
  · have same : fleetHmacLoadEnv env config = config := by simp [fleetHmacLoadEnv, unset]
    rw [same]
    exact follows

/-- A rule that switches the demand on. -/
def Demanding (rule : Bytes × Bytes) : Prop :=
  rule.1 = ascii "FLEET_COMMAND_REQUIRE_SIG" ∧
    ∃ parsed, ruleNumber rule.2 = some parsed ∧ toCInt parsed ≠ 0

theorem AgentConfig.Follows.loadRule (follows : config.Follows env enabled) {rule : Bytes × Bytes}
    (notDisabled : rule.1 = ascii "FLEET_COMMAND_REQUIRE_SIG" →
      ∀ parsed, ruleNumber rule.2 = some parsed → toCInt parsed ≠ 0) :
    (loadFleetRule env config rule).Follows env (enabled ∨ Demanding rule) := by
  have differ : ascii "FLEET_COMMAND_HMAC_KEY" ≠ ascii "FLEET_COMMAND_REQUIRE_SIG" := by decide
  unfold loadFleetRule
  by_cases isKey : rule.1 = ascii "FLEET_COMMAND_HMAC_KEY"
  · have notDemanding : ¬Demanding rule := fun demanding => differ (isKey.symm.trans demanding.1)
    split_ifs with unset
    · have withoutKey : ¬env.HasKey := by
        rintro ⟨value, given, -⟩
        rw [unset] at given
        cases given
      refine ⟨?_, fun _ => Or.inl unset⟩
      simpa [notDemanding, withoutKey] using follows.demand
    · simpa [notDemanding] using follows
  · rw [if_neg isKey]
    by_cases isDemand : rule.1 = ascii "FLEET_COMMAND_REQUIRE_SIG"
    · rcases number : ruleNumber rule.2 with _ | parsed
      · have notDemanding : ¬Demanding rule := by
          rintro ⟨-, parsed, read, -⟩
          rw [number] at read
          cases read
        simpa [notDemanding] using follows
      · have on := notDisabled isDemand parsed number
        have demanding : Demanding rule := ⟨isDemand, parsed, number, on⟩
        dsimp only
        split_ifs with free
        · refine ⟨?_, follows.source⟩
          simp [on, free, demanding]
        · refine ⟨?_, follows.source⟩
          simpa [free] using follows.demand
    · have notDemanding : ¬Demanding rule := fun demanding => isDemand demanding.1
      rw [if_neg isDemand]
      simpa [notDemanding] using follows

theorem AgentConfig.Follows.loadRules {rules : List (Bytes × Bytes)}
    (follows : config.Follows env enabled)
    (notDisabled : ∀ rule ∈ rules, rule.1 = ascii "FLEET_COMMAND_REQUIRE_SIG" →
      ∀ parsed, ruleNumber rule.2 = some parsed → toCInt parsed ≠ 0) :
    (rules.foldl (loadFleetRule env) config).Follows env
      (enabled ∨ ∃ rule ∈ rules, Demanding rule) := by
  induction rules generalizing config enabled with
  | nil => simpa using follows
  | cons rule rest ih =>
    have next := follows.loadRule (notDisabled rule (by simp))
    have later := ih next fun other mem => notDisabled other (by simp [mem])
    simpa [or_assoc] using later

theorem AgentConfig.Follows.step (follows : config.Follows env enabled) {event : AgentEvent}
    (notZero : env.requireSig ≠ some (ascii "0")) (notDisabled : ¬event.Disables) :
    (agentStep env config event).Follows env (enabled ∨ event.Enables) := by
  cases event with
  | loadRules content =>
    have on : ∀ rule ∈ rulesEntries content, rule.1 = ascii "FLEET_COMMAND_REQUIRE_SIG" →
        ∀ parsed, ruleNumber rule.2 = some parsed → toCInt parsed ≠ 0 := by
      intro rule mem isDemand parsed number zero
      apply notDisabled
      refine ⟨parsed, ⟨rule.2, ?_, number⟩, zero⟩
      rw [← isDemand]
      exact mem
    have loaded := follows.loadRules on
    have same : (∃ rule ∈ rulesEntries content, Demanding rule) ↔
        (AgentEvent.loadRules content).Enables := by
      constructor
      · rintro ⟨⟨key, val⟩, mem, isDemand, parsed, number, on⟩
        dsimp only at isDemand number
        rw [isDemand] at mem
        exact ⟨parsed, ⟨val, mem, number⟩, on⟩
      · rintro ⟨parsed, ⟨val, mem, number⟩, on⟩
        exact ⟨_, mem, rfl, parsed, number, on⟩
    rw [same] at loaded
    exact loaded
  | init => simpa [AgentEvent.Enables, agentStep] using follows.loadEnv notZero
  | process json =>
    simp only [agentStep]
    split_ifs
    · simpa [AgentEvent.Enables] using follows.loadEnv notZero
    · simpa [AgentEvent.Enables] using follows

theorem follows_run {events : List AgentEvent} (notZero : env.requireSig ≠ some (ascii "0"))
    (notDisabled : ∀ event ∈ events, ¬event.Disables) (follows : config.Follows env enabled) :
    (Machine.run (agentStep env) config events).Follows env
      (enabled ∨ ∃ event ∈ events, event.Enables) := by
  induction events generalizing config enabled with
  | nil => simpa [Machine.run] using follows
  | cons event rest ih =>
    have later := ih (fun other mem => notDisabled other (by simp [mem]))
      (follows.step notZero (notDisabled event (by simp)))
    simpa [or_assoc, Machine.run] using later

theorem follows_initial : AgentConfig.initial.Follows env False := by
  constructor
  · simp [AgentConfig.initial]
  · simp [AgentConfig.initial]

theorem exists_processCommand {mac : Mac} {fuel : ℕ} {before rest : Bytes} {ran : FleetRun}
    (mem : ran ∈ processFrom mac config fuel before rest) :
    ∃ reached here, processCommand mac config reached here = some ran := by
  induction fuel generalizing before rest with
  | zero => cases mem
  | succ fuel ih =>
    unfold processFrom at mem
    split at mem
    · cases mem
    · rcases List.mem_append.mp mem with now | later
      · exact ⟨_, _, Option.mem_toList.mp now⟩
      · exact ih later

theorem verified_of_requireSig {mac : Mac} (demanded : config.requireSig = true)
    {json : Bytes} {ran : FleetRun} (mem : ran ∈ processCommands mac config json) :
    ran.verified = true := by
  rcases exists_processCommand mem with ⟨reached, here, processed⟩
  unfold processCommand at processed
  dsimp only at processed
  split at processed
  · cases processed
  · rename_i unchecked
    unfold fleetVerifyCommandSig at unchecked
    split_ifs at unchecked
    dsimp only at unchecked
    split_ifs at unchecked
  · cases processed
    rfl

def bareCommand : Bytes := ascii "[\x7b\"commandType\":\"BAN_IP\"\x7d]"

theorem bareCommand_unverified (mac : Mac) (optional : config.requireSig = false) :
    ∃ ran ∈ processCommands mac config bareCommand, ran.verified = false := by
  have length : bareCommand.length = 25 + 1 := by decide
  have found : Search.find (quotedKey (ascii "commandType")) bareCommand = some 2 := by decide
  have unsigned : extractStr (commandWindow ([] ++ bareCommand.take 2) (bareCommand.drop 2))
      (ascii "signature") 128 = [] := by decide +kernel
  unfold processCommands
  rw [length, processFrom, found]
  unfold processCommand
  dsimp only
  rw [unsigned]
  simp [fleetVerifyCommandSig, optional]

/-- With a key and no word against it, the agent runs no unsigned command if and only if the key
is in the environment, or the environment leaves the demand to a file that makes it. -/
theorem fail_closed_iff (mac : Mac) (env : AgentEnv) (events : List AgentEvent)
    (notZero : env.requireSig ≠ some (ascii "0"))
    (notDisabled : ∀ event ∈ events, ¬event.Disables)
    (known : (fleetHmacLoadEnv env
      (Machine.run (agentStep env) .initial events)).hmacKey ≠ []) :
    (∀ json, ∀ ran ∈ processCommands mac (fleetHmacLoadEnv env
        (Machine.run (agentStep env) .initial events)) json, ran.verified = true) ↔
      env.HasKey ∨ env.requireSig = none ∧ ∃ event ∈ events, event.Enables := by
  have follows := (follows_run notZero notDisabled follows_initial).loadEnv notZero
  have demand := follows.demand
  simp only [false_or, known, and_true, ne_eq, not_false_eq_true] at demand
  rw [or_comm, ← demand]
  constructor
  · intro closed
    by_contra optional
    rw [Bool.not_eq_true] at optional
    rcases bareCommand_unverified mac optional with ⟨ran, mem, unverified⟩
    rw [closed bareCommand ran mem] at unverified
    cases unverified
  · intro demanded json ran mem
    exact verified_of_requireSig demanded mem

def demandingRules : Bytes :=
  ascii "FLEET_COMMAND_HMAC_KEY=0123456789abcdef\nFLEET_COMMAND_REQUIRE_SIG=1\n"

theorem demands_demandingRules {parsed : ℤ} : Demands demandingRules parsed ↔ parsed = 1 := by
  have entries : rulesEntries demandingRules =
      [(ascii "FLEET_COMMAND_HMAC_KEY", ascii "0123456789abcdef"),
        (ascii "FLEET_COMMAND_REQUIRE_SIG", ascii "1")] := by decide +kernel
  have other : ascii "FLEET_COMMAND_REQUIRE_SIG" ≠ ascii "FLEET_COMMAND_HMAC_KEY" := by decide
  have number : ruleNumber (ascii "1") = some 1 := by decide
  constructor
  · rintro ⟨val, mem, read⟩
    rw [entries] at mem
    simp only [List.mem_cons, Prod.mk.injEq, other, false_and, true_and, List.not_mem_nil, or_false,
      false_or] at mem
    rw [mem, number] at read
    exact (Option.some.inj read).symm
  · rintro rfl
    exact ⟨ascii "1", by simp [entries], number⟩

theorem fail_closed_with_demanding_rules :
    (fleetHmacLoadEnv ⟨none, none⟩
        (Machine.run (agentStep ⟨none, none⟩) .initial [.loadRules demandingRules])).hmacKey ≠ [] ∧
      ∀ json, ∀ ran ∈ processCommands checksumMac (fleetHmacLoadEnv ⟨none, none⟩
        (Machine.run (agentStep ⟨none, none⟩) .initial [.loadRules demandingRules])) json,
        ran.verified = true := by
  have one : toCInt 1 ≠ 0 := by decide
  have known : (fleetHmacLoadEnv ⟨none, none⟩ (Machine.run (agentStep ⟨none, none⟩) .initial
      [.loadRules demandingRules])).hmacKey ≠ [] := by
    decide +kernel
  refine ⟨known, (fail_closed_iff checksumMac ⟨none, none⟩ [.loadRules demandingRules] (by decide)
    ?_ known).mpr ?_⟩
  · intro event mem
    rw [List.mem_singleton.mp mem]
    rintro ⟨parsed, demands, zero⟩
    rw [demands_demandingRules.mp demands] at zero
    exact one zero
  · refine Or.inr ⟨rfl, _, List.mem_singleton_self _, 1, ?_, one⟩
    exact demands_demandingRules.mpr rfl

/-- With the key in the rules file alone, an unsigned ban is run. -/
theorem unsigned_ban_runs_with_file_key :
    (Machine.run (agentStep ⟨none, none⟩) .initial
        [.loadRules (ascii "FLEET_COMMAND_HMAC_KEY=0123456789abcdef\n")]).hmacKey =
      ascii "0123456789abcdef" ∧
    processCommands checksumMac (fleetHmacLoadEnv ⟨none, none⟩
        (Machine.run (agentStep ⟨none, none⟩) .initial
          [.loadRules (ascii "FLEET_COMMAND_HMAC_KEY=0123456789abcdef\n")]))
        (ascii "[\x7b\"commandType\":\"BAN_IP\",\"payload\":\"203.0.113.9\"\x7d]") =
      [⟨[], [], ascii "BAN_IP", ascii "203.0.113.9", [], some .banIp, false⟩] := by
  decide +kernel

end LogGuardian
