import LogGuardian.Fleet.Command

/-!
# Fleet commands on the agent
-/

namespace LogGuardian

/-- The pattern `"key":"`. -/
def quotedKey (key : Bytes) : Bytes := Search.keyPattern (chr '"') (chr ':') key [chr '"']

/-- `EXTRACT_STR` into a buffer that is zero before. -/
def extractStr (src key : Bytes) (dsz : ℕ) : Bytes :=
  match Search.after (quotedKey key) src with
  | some value => copyInto dsz (value.takeWhile (· ≠ chr '"'))
  | none => []

structure AgentConfig where
  hmacKey : Bytes
  requireSig : Bool

inductive SigCheck where
  | rejected | unchecked | verified
  deriving DecidableEq, Repr

def secureEquals (a b : Bytes) : Bool :=
  (a.length ^^^ b.length) % 256 = 0 &&
    (List.range (max a.length b.length)).all fun i => byteAt a i = byteAt b i

theorem eq_of_byteAt_eq {a b : Bytes} (aString : 0 ∉ a) (bString : 0 ∉ b)
    (same : ∀ i < max a.length b.length, byteAt a i = byteAt b i) : a = b := by
  induction a generalizing b with
  | nil =>
    rcases b with _ | ⟨head, b⟩
    · rfl
    · have first : 0 = head := same 0 (by simp)
      simp [← first] at bString
  | cons head a ih =>
    rcases b with _ | ⟨other, b⟩
    · have first : head = 0 := same 0 (by simp)
      simp [first] at aString
    · have first : head = other := same 0 (by simp)
      have rest : a = b := by
        apply ih
        · exact fun inA => aString (List.mem_cons_of_mem _ inA)
        · exact fun inB => bString (List.mem_cons_of_mem _ inB)
        · intro i inside
          have next := same (i + 1) (by simp; omega)
          simpa [byteAt] using next
      rw [first, rest]

theorem eq_of_secureEquals {a b : Bytes} (aString : 0 ∉ a) (bString : 0 ∉ b)
    (accepted : secureEquals a b = true) : a = b := by
  simp only [secureEquals, Bool.and_eq_true, List.all_eq_true, List.mem_range,
    decide_eq_true_eq] at accepted
  exact eq_of_byteAt_eq aString bString accepted.2

def fleetVerifyCommandSig (mac : Mac) (config : AgentConfig)
    (id tenantId cmdType payload targetAgent sigHex : Bytes) : SigCheck :=
  if config.hmacKey = [] ∨ sigHex = [] then
    if config.requireSig then .rejected else .unchecked
  else
    let msg := copyInto 4608 (buildFleetCommandDigest id tenantId cmdType payload targetAgent)
    if secureEquals (mac.hmacHex config.hmacKey msg) sigHex then .verified else .rejected

inductive FleetKind where
  | banIp | pushWafRule | pushThreatFeed | pushConfig | pushSchema | pushWasmPlugin | unbanIp
  deriving DecidableEq, Repr

def fleetKind (cmdType : Bytes) : Option FleetKind :=
  if cmdType = ascii "BAN_IP" then some .banIp
  else if cmdType = ascii "PUSH_WAF_RULE" then some .pushWafRule
  else if cmdType = ascii "PUSH_THREAT_FEED" then some .pushThreatFeed
  else if cmdType = ascii "PUSH_CONFIG" then some .pushConfig
  else if cmdType = ascii "PUSH_SCHEMA" then some .pushSchema
  else if cmdType = ascii "PUSH_WASM_PLUGIN" then some .pushWasmPlugin
  else if cmdType = ascii "UNBAN_IP" then some .unbanIp
  else none

structure FleetRun where
  id : Bytes
  tenantId : Bytes
  commandType : Bytes
  payload : Bytes
  targetAgentId : Bytes
  kind : Option FleetKind
  verified : Bool
  deriving DecidableEq, Repr

/-- `local`: the text around a command. -/
def commandWindow (before here : Bytes) : Bytes :=
  let toBrace := (before.reverse.takeWhile (· ≠ chr '\x7b')).length + 1
  let back := min 1200 (min before.length toBrace)
  copyInto 4608 (before.drop (before.length - back) ++ here.take 3200)

section Process

variable (mac : Mac) (config : AgentConfig)

/-- One round of the loop, at an occurrence of `"commandType":"`. -/
def processCommand (before here : Bytes) : Option FleetRun :=
  let cmdType := copyInto 64 ((here.drop 15).takeWhile (· ≠ chr '"'))
  let window := commandWindow before here
  let payload := extractStr window (ascii "payload") 4096
  let id := extractStr window (ascii "id") 64
  let tenantId := extractStr window (ascii "tenantId") 64
  let targetAgent := extractStr window (ascii "targetAgentId") 128
  let signature := extractStr window (ascii "signature") 128
  match fleetVerifyCommandSig mac config id tenantId cmdType payload targetAgent signature with
  | .rejected => none
  | .unchecked => some ⟨id, tenantId, cmdType, payload, targetAgent, fleetKind cmdType, false⟩
  | .verified => some ⟨id, tenantId, cmdType, payload, targetAgent, fleetKind cmdType, true⟩

def processFrom : ℕ → Bytes → Bytes → List FleetRun
  | 0, _, _ => []
  | fuel + 1, before, rest =>
    match Search.find (quotedKey (ascii "commandType")) rest with
    | none => []
    | some offset =>
      let reached := before ++ rest.take offset
      let here := rest.drop offset
      (processCommand mac config reached here).toList ++
        processFrom fuel (reached ++ here.take 15) (here.drop 15)

/-- `process_commands`: the commands that are run, in order. -/
def processCommands (json : Bytes) : List FleetRun := processFrom mac config json.length [] json

end Process

end LogGuardian
