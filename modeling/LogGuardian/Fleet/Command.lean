import LogGuardian.Lib.QuotedSearch
import LogGuardian.Firewall.Inet

/-!
# Fleet commands on the dashboard
-/

namespace LogGuardian

/-- The bytes of the characters that `trim` removes. -/
def jsWhitespace : List Bytes :=
  [[9], [10], [11], [12], [13], [32], [0xC2, 0xA0], [0xE1, 0x9A, 0x80], [0xE2, 0x80, 0x80],
    [0xE2, 0x80, 0x81], [0xE2, 0x80, 0x82], [0xE2, 0x80, 0x83], [0xE2, 0x80, 0x84],
    [0xE2, 0x80, 0x85], [0xE2, 0x80, 0x86], [0xE2, 0x80, 0x87], [0xE2, 0x80, 0x88],
    [0xE2, 0x80, 0x89], [0xE2, 0x80, 0x8A], [0xE2, 0x80, 0xA8], [0xE2, 0x80, 0xA9],
    [0xE2, 0x80, 0xAF], [0xE2, 0x81, 0x9F], [0xE3, 0x80, 0x80], [0xEF, 0xBB, 0xBF]]

def stripSpaces (spaces : List Bytes) : ℕ → Bytes → Bytes
  | 0, text => text
  | fuel + 1, text =>
    match spaces.find? (fun space => space <+: text) with
    | some space => stripSpaces spaces fuel (text.drop space.length)
    | none => text

/-- `String.prototype.trim`. -/
def jsTrim (text : Bytes) : Bytes :=
  let start := stripSpaces jsWhitespace text.length text
  (stripSpaces (jsWhitespace.map List.reverse) start.length start.reverse).reverse

/-- `length` of a string: UTF-16 code units, counted at the first byte of each character. -/
def utf16Length (text : Bytes) : ℕ :=
  (text.map fun byte : UInt8 =>
    if byte < 0x80 then 1 else if byte < 0xC0 then 0 else if byte < 0xF0 then 1 else 2).sum

def isWordByte (byte : UInt8) : Bool :=
  isDigit byte || (65 ≤ byte && byte ≤ 90) || (97 ≤ byte && byte ≤ 122) || byte = chr '_'

def allowedTypes : List Bytes :=
  ["BAN_IP", "UNBAN_IP", "PUSH_WAF_RULE", "PUSH_THREAT_FEED", "PUSH_CONFIG", "PUSH_SCHEMA",
    "PUSH_WASM_PLUGIN"].map ascii

def vpsFleetAgentId : Bytes := ascii "node-vps-01"

def isVpsFleetShadowAgent (agentId : Bytes) : Bool := agentId = vpsFleetAgentId

/-- `IP_RE`. -/
def ipReTest (ip : Bytes) : Bool :=
  let octets := ip.splitOn (chr '.')
  let groups := ip.splitOn (chr ':')
  (octets.length = 4 && octets.all fun part =>
      1 ≤ part.length && part.length ≤ 3 && part.all isDigit && decimalValue part ≤ 255) ||
    (3 ≤ groups.length && groups.length ≤ 8 && groups.all fun part =>
      part.length ≤ 4 && part.all fun byte => (hexDigit byte).isSome)

/-- `validateFleetCommand` on strings: the error, or `none`. -/
def validateFleetCommand (commandType payload : Bytes) (targetAgentId : Option Bytes) :
    Option Bytes :=
  let trimmed := jsTrim commandType
  if trimmed ∉ allowedTypes then
    some (ascii "invalid commandType: " ++ if trimmed = [] then ascii "(empty)" else trimmed)
  else if payload = [] || 4096 < utf16Length payload then
    some (ascii "payload missing or too large")
  else if (trimmed = ascii "BAN_IP" || trimmed = ascii "UNBAN_IP") && !ipReTest (jsTrim payload) then
    some (ascii "invalid IP for " ++ trimmed)
  else
    match targetAgentId with
    | none | some [] => none
    | some agentId =>
      if isVpsFleetShadowAgent agentId then
        some (ascii "targetAgentId is SSH watch-only (no fleet dispatch)")
      else if 128 < utf16Length agentId ||
          !agentId.all fun byte => isWordByte byte || byte = chr '.' || byte = chr '-' then
        some (ascii "invalid targetAgentId")
      else none

/-- What `uuid()` makes. -/
def IsUuid (text : Bytes) : Prop :=
  text.length = 36 ∧ ∀ byte ∈ text, (hexDigit byte).isSome = true ∨ byte = chr '-'

instance (text : Bytes) : Decidable (IsUuid text) := by
  unfold IsUuid
  infer_instance

/-- A pending command as the dashboard stores it. Its id is a `uuid()`; the tenant's id is whatever
its creator gave it, and stands for itself in JSON. -/
structure FleetCommand where
  id : Bytes
  tenantId : Bytes
  targetAgentId : Option Bytes
  commandType : Bytes
  payload : Bytes
  createdAt : Bytes
  idUuid : IsUuid id
  tenantPlain : ∀ byte ∈ tenantId,
    (byte ≠ chr '"' ∧ byte ≠ chr '\\' ∧ 32 ≤ byte) ∧ byte ≠ chr '\x7b'
  accepted : validateFleetCommand commandType payload targetAgentId = none
  targetNonempty : targetAgentId ≠ some []
  createdPlain : ∀ byte ∈ createdAt, byte ≠ chr '"' ∧ byte ≠ chr '\\' ∧ 32 ≤ byte

structure Mac where
  hmacHex : Bytes → Bytes → Bytes
  isHex : ∀ key message, (hmacHex key message).length = 64 ∧
    ∀ byte ∈ hmacHex key message, (hexDigit byte).isSome = true

def buildFleetCommandDigest (id tenantId commandType payload target : Bytes) : Bytes :=
  id ++ ascii "|" ++ tenantId ++ ascii "|" ++ commandType ++ ascii "|" ++ payload ++ ascii "|" ++ target

/-- `signFleetCommand` with a key that is long enough. -/
def signFleetCommand (mac : Mac) (key : Bytes) (command : FleetCommand) : Bytes :=
  mac.hmacHex key (buildFleetCommandDigest command.id command.tenantId command.commandType
    command.payload (command.targetAgentId.getD []))

def hexDigitByte (value : UInt8) : UInt8 := if value < 10 then 48 + value else 87 + value

def jsonEscapeByte (byte : UInt8) : Bytes :=
  if byte = chr '"' then ascii "\\\""
  else if byte = chr '\\' then ascii "\\\\"
  else if byte = 8 then ascii "\\b"
  else if byte = 9 then ascii "\\t"
  else if byte = 10 then ascii "\\n"
  else if byte = 12 then ascii "\\f"
  else if byte = 13 then ascii "\\r"
  else if byte < 32 then ascii "\\u00" ++ [hexDigitByte (byte / 16), hexDigitByte (byte % 16)]
  else [byte]

def jsonEscape (text : Bytes) : Bytes := text.flatMap jsonEscapeByte

def jsonString (text : Bytes) : Bytes := chr '"' :: (jsonEscape text ++ [chr '"'])

/-- The text `"key":`. -/
def jsonKey (key : Bytes) : Bytes := chr '"' :: (key ++ [chr '"', chr ':'])

def jsonMember (key text : Bytes) (next : UInt8) : Bytes :=
  jsonKey key ++ (jsonString text ++ [next])

section Json

variable (mac : Mac) (key : Bytes) (command : FleetCommand)

def FleetCommand.jsonTarget : Bytes :=
  match command.targetAgentId with
  | some agentId => jsonMember (ascii "targetAgentId") agentId (chr ',')
  | none => ascii "\"targetAgentId\":null,"

/-- The object of a pending command up to `commandType`. -/
def FleetCommand.jsonHead : Bytes :=
  chr '\x7b' :: (jsonMember (ascii "id") command.id (chr ',') ++
    (jsonMember (ascii "tenantId") command.tenantId (chr ',') ++ command.jsonTarget))

/-- The object from `commandType` to the last byte of the signature. -/
def FleetCommand.jsonSigned : Bytes :=
  jsonMember (ascii "commandType") command.commandType (chr ',') ++
    (jsonMember (ascii "payload") command.payload (chr ',') ++
      (ascii "\"executed\":false,\"status\":\"pending\",\"executedAt\":null," ++
        (jsonKey (ascii "signature") ++ chr '"' :: signFleetCommand mac key command)))

def FleetCommand.jsonEnd : Bytes :=
  chr '"' :: chr ',' :: jsonMember (ascii "createdAt") command.createdAt (chr '\x7d')

def jsonRest : List FleetCommand → Bytes
  | [] => ascii "]"
  | command :: rest =>
    chr ',' :: (command.jsonHead ++ (command.jsonSigned mac key ++ (command.jsonEnd ++
      jsonRest rest)))

/-- `JSON.stringify` of an array of signed commands. -/
def jsonCommands : List FleetCommand → Bytes
  | [] => ascii "[]"
  | command :: rest =>
    chr '[' :: (command.jsonHead ++ (command.jsonSigned mac key ++ (command.jsonEnd ++
      jsonRest mac key rest)))

end Json

def checksumMac : Mac where
  hmacHex _ message := List.replicate 63 (chr '0') ++ [hexDigitByte (message.sum % 16)]
  isHex := by
    have digits : ∀ value : UInt8, (hexDigit (hexDigitByte (value % 16))).isSome = true := by
      decide +kernel
    intro _ message
    refine ⟨by simp, ?_⟩
    intro byte mem
    rcases List.mem_append.mp mem with zero | last
    · rw [List.eq_of_mem_replicate zero]
      decide
    · rw [List.mem_singleton.mp last]
      exact digits message.sum

end LogGuardian
