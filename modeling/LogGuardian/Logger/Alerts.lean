import LogGuardian.Audit.Chain
import LogGuardian.JsonText
import LogGuardian.Lib.Cef
import LogGuardian.Lib.JsonObject
import LogGuardian.Logger.Hmac

/-!
# Alert records
-/

namespace LogGuardian

open List

abbrev alertMsgLen : ℕ := 256

def escMsg (special : UInt8 → Bool) (size : ℕ) : ℕ → Bytes → Bytes
  | _, [] => []
  | ei, byte :: rest =>
    if ei + 2 < size then
      if special byte then chr '\\' :: byte :: escMsg special size (ei + 2) rest
      else byte :: escMsg special size (ei + 1) rest
    else []

def cefSpecial (byte : UInt8) : Bool := byte = chr '|' || byte = chr '\\' || byte = chr '\n'

def siemSpecial (byte : UInt8) : Bool := mustEscape byte || byte = chr '\n'

/-- An `Alert` whose texts fit the arrays that hold them. -/
structure StoredAlert extends AlertRecord where
  messageFits : message.length < alertMsgLen
  ipFits : ip.length < ipStrLen
  mitreIdFits : mitreId.length < 16
  mitreTacticFits : mitreTactic.length < 32
  incidentIdFits : incidentId.length < 24
  tsFits : ts.natAbs ≤ 2 ^ 63

/-- A `SiemEvent`. -/
structure SiemEvent where
  alert : StoredAlert
  sensorType : Bytes
  eventType : Bytes
  riskScore : ℚ
  policy : Bytes
  sensorTypeFits : sensorType.length < 32
  eventTypeFits : eventType.length < 16
  policyFits : policy.length < 64
  riskScoreFits : riskScore < 2 ^ 1024

/-- What the writers read besides the alert: the tenant, the HMAC key, the format of the SIEM, and
the local time of a second as `strftime` prints it with `%Y-%m-%dT%H:%M:%S%z` and with
`%b %d %H:%M:%S`. -/
structure LogSettings where
  tenantId : Bytes
  hmacKey : Bytes
  siemFormat : Bytes
  isoTime : ℤ → Bytes
  syslogTime : ℤ → Bytes
  tenantIdFits : tenantId.length < 128
  isoTimeFits : ∀ ts, (isoTime ts).length < 64
  isoTimeContent : ∀ ts, Json.IsContent (isoTime ts)
  syslogTimePlain : ∀ ts, Cef.Plain (syslogTime ts)
  syslogTimeLine : ∀ ts, chr '\n' ∉ syslogTime ts

def orElseText (text default : Bytes) : Bytes := if text = [] then default else text

section Writers

variable (settings : LogSettings)

/-- The line of `log_alert_json_signed` up to its message. -/
def jsonFront (alert : StoredAlert) : Bytes :=
  ascii "\x7b\"tenant_id\":\"" ++ (settings.tenantId ++ (ascii "\",\"timestamp\":\"" ++
    (settings.isoTime alert.ts ++ (ascii "\",\"level\":" ++ (numeral alert.level.number ++
    (ascii ",\"ip\":\"" ++ (alert.ip ++ (ascii "\",\"incident_id\":\"" ++ (alert.incidentId ++
    (ascii "\",\"mitre_id\":\"" ++ (alert.mitreId ++ (ascii "\",\"mitre_tactic\":\"" ++
    (alert.mitreTactic ++ ascii "\",\"message\":\"")))))))))))))

def jsonLine (alert : StoredAlert) : Bytes :=
  copyInto 1024 (jsonFront settings alert ++
    (escMsg mustEscape (alertMsgLen * 2 + 4) 0 alert.message ++ ascii "\""))

/-- `log_alert_json_signed`: what it appends to its file. -/
def logAlertJsonSigned (alert : StoredAlert) : Bytes :=
  let line := jsonLine settings alert
  if settings.hmacKey = [] then line ++ ascii "\x7d\n"
  else line ++ (ascii ",\"hmac\":\"" ++ (hexText (hmacS256 settings.hmacKey line) ++ ascii "\"\x7d\n"))

/-- `log_alert_cef`: what it appends to its file. -/
def logAlertCef (alert : StoredAlert) : Bytes :=
  settings.syslogTime alert.ts ++ (ascii " CEF:0|LogGuardian|LogAnalyzer|1.0|" ++
    (orElseText alert.mitreId (ascii "LG_ALERT") ++ (ascii "|" ++
    (orElseText alert.mitreTactic (ascii "General") ++ (ascii "|" ++
    (numeral (alert.level.number * 2) ++ (ascii "|src=" ++ (alert.ip ++ (ascii " msg=" ++
    (escMsg cefSpecial (alertMsgLen * 2 + 4) 0 alert.message ++ ascii " act=alert\n"))))))))))

/-- The tenths that `%.1f` prints of a number that is not negative, ties to even. -/
def tenthsOf (value : ℚ) : ℕ :=
  let floor := (value * 10).floor.toNat
  let rest := value * 10 - floor
  if rest < 1 / 2 ∨ (rest = 1 / 2 ∧ floor % 2 = 0) then floor else floor + 1

def levelStr (alert : StoredAlert) : Bytes :=
  if alert.level = .crit then ascii "CRITICAL" else ascii "WARNING"

def shownRisk (event : SiemEvent) : Bytes :=
  printTenths (tenthsOf (if 0 ≤ event.riskScore then event.riskScore else 0))

def stixFront (event : SiemEvent) : Bytes :=
  ascii "\x7b\"type\":\"bundle\",\"id\":\"bundle--lg-" ++ (printInt event.alert.ts ++
    (ascii "\",\"objects\":[\x7b\"type\":\"indicator\"," ++
    (ascii "\"spec_version\":\"2.1\",\"id\":\"indicator--lg-" ++
    (printInt event.alert.ts ++ (ascii "-" ++ (event.alert.ip ++
    (ascii "\",\"created\":\"1970-01-01T00:00:00.000Z\"," ++
    (ascii "\"modified\":\"1970-01-01T00:00:00.000Z\",\"name\":\"Log Guardian " ++
    (orElseText event.eventType (ascii "alert") ++
    (ascii "\",\"pattern\":\"[ipv4-addr:value = '" ++ (event.alert.ip ++
    (ascii "']\",\"pattern_type\":\"stix\",\"valid_from\":\"1970-01-01T00:00:00.000Z\"," ++
    (ascii "\"labels\":[\"malicious-activity\"]," ++
    (ascii "\"external_references\":[\x7b\"source_name\":\"mitre-attack\",\"external_id\":\"" ++
    (orElseText event.alert.mitreId (ascii "T1190") ++ (ascii "\"\x7d],\"x_lg_tenant\":\"" ++
    (settings.tenantId ++ (ascii "\",\"x_lg_sensor\":\"" ++ (event.sensorType ++
    (ascii "\",\"x_lg_level\":\"" ++ (levelStr event.alert ++
    ascii "\",\"x_lg_message\":\"")))))))))))))))))))))

def stixBack (event : SiemEvent) : Bytes :=
  ascii "\",\"x_lg_risk\":" ++ (shownRisk event ++ (ascii ",\"x_lg_policy\":\"" ++
    (event.policy ++ ascii "\"\x7d]\x7d\n")))

def siemFront (event : SiemEvent) : Bytes :=
  ascii "\x7b\"event_type\":\"" ++ (orElseText event.eventType (ascii "alert") ++
    (ascii "\",\"tenant_id\":\"" ++ (settings.tenantId ++ (ascii "\",\"timestamp\":" ++
    (printInt event.alert.ts ++ (ascii ",\"sensor\":\"" ++ (event.sensorType ++
    (ascii "\",\"level\":\"" ++ (levelStr event.alert ++ (ascii "\",\"ip\":\"" ++ (event.alert.ip ++
    (ascii "\",\"mitre\":\"" ++ (orElseText event.alert.mitreId (ascii "Unknown") ++
    ascii "\",\"message\":\"")))))))))))))

def siemBack (event : SiemEvent) : Bytes :=
  ascii "\",\"risk_score\":" ++ (shownRisk event ++ (ascii ",\"policy\":\"" ++
    (event.policy ++ ascii "\"\x7d\n")))

def isStix : Prop := settings.siemFormat.map toLower = ascii "stix"

instance : Decidable (isStix settings) :=
  inferInstanceAs (Decidable (settings.siemFormat.map toLower = ascii "stix"))

def siemPayload (event : SiemEvent) : Bytes :=
  let message := escMsg siemSpecial (alertMsgLen * 2) 0 event.alert.message
  if isStix settings then stixFront settings event ++ (message ++ stixBack event)
  else siemFront settings event ++ (message ++ siemBack event)

/-- `send_to_siem`: what it hands to `send`. -/
def sendToSiem (event : SiemEvent) : Option Bytes :=
  if (siemPayload settings event).length < 8192 then some (siemPayload settings event) else none

end Writers

/-- One physical line and its end. -/
def OneLine (text line : Bytes) : Prop := text = line ++ [chr '\n'] ∧ chr '\n' ∉ line

/-- An object with these members, one of which is the message. -/
def HoldsMessage (names : List Bytes) (key message object : Bytes) : Prop :=
  ∃ members, Json.IsObject object members ∧ members.map Json.Member.name = names ∧
    ∃ member ∈ members, member.name = key ∧
      ∃ content, member.value = Json.quoted content ∧ Json.decode content = message

def JsonRecord (names : List Bytes) (message text : Bytes) : Prop :=
  ∃ line, OneLine text line ∧ HoldsMessage names (ascii "message") message line

/-- A bundle of one object, which holds the message. -/
def StixRecord (names : List Bytes) (message text : Bytes) : Prop :=
  ∃ line members, OneLine text line ∧ Json.IsObject line members ∧
    members.map Json.Member.name = [ascii "type", ascii "id", ascii "objects"] ∧
    ∃ member ∈ members, member.name = ascii "objects" ∧
      ∃ object, member.value = 0x5b :: (object ++ [0x5d]) ∧
        HoldsMessage names (ascii "x_lg_message") message object

/-- A CEF line with this header and the keys of an alert. -/
def CefRecord (header : List Bytes) (text : Bytes) : Prop :=
  ∃ line extension, OneLine text line ∧ Cef.header header.length line = some (header, extension) ∧
    Cef.keys extension = [ascii "src", ascii "msg", ascii "act"]

def signedNames (settings : LogSettings) : List Bytes :=
  [ascii "tenant_id", ascii "timestamp", ascii "level", ascii "ip", ascii "incident_id",
    ascii "mitre_id", ascii "mitre_tactic", ascii "message"] ++
    if settings.hmacKey = [] then [] else [ascii "hmac"]

def siemNames : List Bytes :=
  [ascii "event_type", ascii "tenant_id", ascii "timestamp", ascii "sensor", ascii "level",
    ascii "ip", ascii "mitre", ascii "message", ascii "risk_score", ascii "policy"]

def stixNames : List Bytes :=
  [ascii "type", ascii "spec_version", ascii "id", ascii "created", ascii "modified", ascii "name",
    ascii "pattern", ascii "pattern_type", ascii "valid_from", ascii "labels",
    ascii "external_references", ascii "x_lg_tenant", ascii "x_lg_sensor", ascii "x_lg_level",
    ascii "x_lg_message", ascii "x_lg_risk", ascii "x_lg_policy"]

def cefHeader (settings : LogSettings) (alert : StoredAlert) : List Bytes :=
  [settings.syslogTime alert.ts ++ ascii " CEF:0", ascii "LogGuardian", ascii "LogAnalyzer",
    ascii "1.0", orElseText alert.mitreId (ascii "LG_ALERT"),
    orElseText alert.mitreTactic (ascii "General"), numeral (alert.level.number * 2)]

/-- Each writer makes one record of the alert, with the fields of the writer and no others. -/
structure OneRecordEach (settings : LogSettings) (event : SiemEvent) : Prop where
  json : JsonRecord (signedNames settings) event.alert.message
    (logAlertJsonSigned settings event.alert)
  cef : CefRecord (cefHeader settings event.alert) (logAlertCef settings event.alert)
  siem : ∃ payload, sendToSiem settings event = some payload ∧
    if isStix settings then StixRecord stixNames event.alert.message payload
    else JsonRecord siemNames event.alert.message payload

/-- The texts around the message are what they are printed as: strings of JSON, an address without
spaces, header fields of CEF. -/
structure PlainTexts (settings : LogSettings) (event : SiemEvent) : Prop where
  tenantId : Json.IsContent settings.tenantId
  ip : Json.IsContent event.alert.ip
  ipWord : chr ' ' ∉ event.alert.ip
  incidentId : Json.IsContent event.alert.incidentId
  mitreId : Json.IsContent event.alert.mitreId
  mitreIdPlain : Cef.Plain event.alert.mitreId
  mitreTactic : Json.IsContent event.alert.mitreTactic
  mitreTacticPlain : Cef.Plain event.alert.mitreTactic
  sensorType : Json.IsContent event.sensorType
  eventType : Json.IsContent event.eventType
  policy : Json.IsContent event.policy

/-- UTF-8 without control characters, and no word behind the first that a CEF reader takes for a
key. -/
def PlainMessage (message : Bytes) : Prop :=
  Json.IsRaw message ∧ ∀ word ∈ (message.splitOn (chr ' ')).tail, Cef.keyOf word = none

instance (message : Bytes) : Decidable (PlainMessage message) :=
  inferInstanceAs (Decidable (Json.IsRaw message ∧
    ∀ word ∈ (message.splitOn (chr ' ')).tail, Cef.keyOf word = none))

def escapeAs (special : UInt8 → Bool) (byte : UInt8) : Bytes :=
  if special byte then [chr '\\', byte] else [byte]

variable {message text content key default : Bytes} {texts : List Bytes}

theorem escMsg_eq {special : UInt8 → Bool} {size ei : ℕ} (room : ei + 2 * message.length < size) :
    escMsg special size ei message = message.flatMap (escapeAs special) := by
  induction message generalizing ei with
  | nil => rfl
  | cons byte rest ih =>
    rw [length_cons] at room
    rw [escMsg, if_pos (by omega), flatMap_cons]
    by_cases isSpecial : special byte = true
    · rw [if_pos isSpecial, escapeAs, if_pos isSpecial, ih (by omega)]
      rfl
    · rw [if_neg isSpecial, escapeAs, if_neg isSpecial, ih (by omega)]
      rfl

theorem escaped_eq_escapeText (text : Bytes) : Json.escaped text = escapeText text := by
  unfold Json.escaped escapeText
  congr 1
  funext byte
  have special : (byte = 0x22 ∨ byte = 0x5c) ↔ mustEscape byte = true := by
    simp [mustEscape, chr]
  simp only [special]
  rfl

theorem mem_escapeText {byte : UInt8} (mem : byte ∈ text) : byte ∈ escapeText text := by
  apply List.mem_flatMap.mpr
  refine ⟨byte, mem, ?_⟩
  unfold escapeOf
  split <;> simp

theorem flatMap_siemSpecial (line : chr '\n' ∉ message) :
    message.flatMap (escapeAs siemSpecial) = escapeText message := by
  apply flatMap_congr
  intro byte mem
  have notBreak : byte ≠ chr '\n' := fun isBreak => line (isBreak ▸ mem)
  have same : siemSpecial byte = mustEscape byte := by simp [siemSpecial, notBreak]
  rw [escapeAs, same]
  rfl

theorem read_escaped (text : Bytes) {state : Json.CharState} (between : isBetween state = true) :
    Json.read state (Json.escaped text) = Json.readRaw state text := by
  induction text generalizing state with
  | nil => rfl
  | cons byte rest ih =>
    by_cases special : byte = 0x22 ∨ byte = 0x5c
    · rw [Json.escaped_cons_of_special special]
      cases state with
      | plain =>
        have closed := @ih .plain rfl
        rcases special with rfl | rfl
        · exact closed
        · exact closed
      | tail low high left =>
        have stuck : ∀ next : UInt8, next < 0x80 →
            Json.CharState.next (.tail low high left) next = none := by
          intro next ascii
          rw [Json.CharState.next, if_neg]
          rintro ⟨-, -, high⟩
          exact absurd ascii (UInt8.not_lt.mpr high)
        have ascii : byte < 0x80 := by rcases special with rfl | rfl <;> decide
        rw [Json.readRaw, stuck byte ascii, Json.read, stuck 0x5c (by decide)]
        rfl
      | _ => cases between
    · rw [Json.escaped_cons_of_plain special, Json.readRaw, if_neg (fun both => special both.2),
        Json.read]
      rcases steps : state.next byte with _ | next
      · rfl
      · exact ih (isBetween_next between (fun isSlash => special (.inr isSlash)) steps)

theorem isContent_escapeText_iff (text : Bytes) :
    Json.IsContent (escapeText text) ↔ Json.IsRaw text := by
  unfold Json.IsContent Json.IsRaw
  rw [← escaped_eq_escapeText, read_escaped text rfl]

theorem decode_escapeText (text : Bytes) : Json.decode (escapeText text) = text := by
  rw [← escaped_eq_escapeText]
  exact Json.decode_escaped text

theorem newline_not_mem_of_isContent (content : Json.IsContent text) :
    chr '\n' ∉ text :=
  Json.control_not_mem_of_read content (by decide)

theorem newline_not_mem_of_isRaw (raw : Json.IsRaw message) :
    chr '\n' ∉ message := fun mem =>
  newline_not_mem_of_isContent ((isContent_escapeText_iff message).mpr raw) (mem_escapeText mem)

/-- An entry of an object whose value is JSON on one line. -/
structure PlainEntry (entry : Bytes × Bytes) : Prop where
  key : Json.IsContent entry.1
  value : ∃ kind, Json.IsValue kind entry.2
  line : chr '\n' ∉ entry.2

def objectText (fields : List (Bytes × Bytes)) : Bytes :=
  0x7b :: (Json.commas (fields.map fun entry => Json.field entry.1 entry.2) ++ [0x7d])

def entryMember (entry : Bytes × Bytes) : Json.Member := ⟨[], entry.1, [], [], entry.2, []⟩

theorem newline_not_mem_quoted (line : chr '\n' ∉ content) :
    chr '\n' ∉ Json.quoted content := by
  simpa [Json.quoted, chr] using line

theorem plainEntry_string (isKey : Json.IsContent key) (isContent : Json.IsContent content) :
    PlainEntry (key, Json.quoted content) where
  key := isKey
  value := ⟨.string, .string isContent⟩
  line := newline_not_mem_quoted (newline_not_mem_of_isContent isContent)

theorem newline_not_mem_numeral (number : ℕ) : chr '\n' ∉ numeral number := fun mem =>
  absurd (isDigit_of_mem_numeral mem) (by decide)

theorem newline_not_mem_printInt (value : ℤ) : chr '\n' ∉ printInt value := by
  intro mem
  rcases mem_printInt mem with digit | isMinus
  · exact absurd digit (by decide)
  · exact absurd isMinus (by decide)

theorem plainEntry_printInt (isKey : Json.IsContent key) (value : ℤ) :
    PlainEntry (key, printInt value) :=
  ⟨isKey, ⟨_, isValue_printInt value⟩, newline_not_mem_printInt value⟩

theorem plainEntry_printTenths (isKey : Json.IsContent key) (tenths : ℕ) :
    PlainEntry (key, printTenths tenths) := by
  have isValue := isValue_tenths (tenths / 10) (Nat.mod_lt tenths (show 0 < 10 by decide))
  rw [append_assoc] at isValue
  refine ⟨isKey, ⟨_, isValue⟩, ?_⟩
  change chr '\n' ∉ numeral (tenths / 10) ++ chr '.' :: numeral (tenths % 10)
  rw [mem_append, mem_cons, not_or, not_or]
  exact ⟨newline_not_mem_numeral _, by decide, newline_not_mem_numeral _⟩

theorem newline_not_mem_commas (line : ∀ text ∈ texts, chr '\n' ∉ text) :
    chr '\n' ∉ Json.commas texts := by
  rcases texts with _ | ⟨first, rest⟩
  · exact not_mem_nil
  · rw [forall_mem_cons] at line
    rw [Json.commas, mem_append, mem_flatMap, not_or]
    refine ⟨line.1, ?_⟩
    rintro ⟨text, mem, isBreak⟩
    rcases List.mem_cons.mp isBreak with isComma | isBreak
    · exact absurd isComma (by decide)
    · exact line.2 text mem isBreak

theorem plainEntry_array {value : Bytes} {kind : Json.Kind} (isKey : Json.IsContent key)
    (isValue : Json.IsValue kind value) (line : chr '\n' ∉ value) :
    PlainEntry (key, 0x5b :: (Json.commas [value] ++ [0x5d])) := by
  have single : ∀ other ∈ [value], Json.IsValue kind other := by
    intro other mem
    rw [List.mem_singleton.mp mem]
    exact isValue
  have noBreak : chr '\n' ∉ Json.commas [value] := newline_not_mem_commas (by simpa using line)
  refine ⟨isKey, ⟨.array, Json.isValue_array single⟩, ?_⟩
  rw [mem_cons, mem_append, not_or, not_or]
  exact ⟨by decide, noBreak, by decide⟩

section Entries

variable {fields : List (Bytes × Bytes)} (plain : ∀ entry ∈ fields, PlainEntry entry)

include plain

theorem newline_not_mem_objectText : chr '\n' ∉ objectText fields := by
  have line : chr '\n' ∉ Json.commas (fields.map fun entry => Json.field entry.1 entry.2) := by
    apply newline_not_mem_commas
    intro text mem
    rcases List.mem_map.mp mem with ⟨entry, isEntry, rfl⟩
    rcases plain entry isEntry with ⟨key, -, line⟩
    rw [Json.field, mem_append, mem_cons, not_or, not_or]
    exact ⟨newline_not_mem_quoted (newline_not_mem_of_isContent key), by decide, line⟩
  rw [objectText, mem_cons, mem_append, not_or, not_or]
  exact ⟨by decide, line, by decide⟩

theorem isValue_objectText (nonempty : fields ≠ []) : Json.IsValue .object (objectText fields) :=
  Json.isValue_fields nonempty fun entry isEntry => ⟨(plain entry isEntry).key, (plain entry isEntry).value⟩

theorem isObject_objectText (nonempty : fields ≠ []) :
    Json.IsObject (objectText fields) (fields.map entryMember) := by
  have texts : (fields.map entryMember).map Json.Member.text =
      fields.map fun entry => Json.field entry.1 entry.2 := by
    rw [map_map]
    apply map_congr_left
    intro entry _
    exact Json.text_compact entry.1 entry.2
  have valid : ∀ member ∈ fields.map entryMember, member.Valid := by
    intro member isMember
    rcases List.mem_map.mp isMember with ⟨entry, isEntry, rfl⟩
    exact ⟨Json.framed_compact (plain entry isEntry).key, (plain entry isEntry).value⟩
  have isObject := Json.isObject_compact (List.map_eq_nil_iff.not.mpr nonempty) valid
  rwa [texts] at isObject

theorem holdsMessage_objectText {key content : Bytes} (mem : (key, Json.quoted content) ∈ fields) :
    HoldsMessage ((fields.map entryMember).map Json.Member.name) (Json.decode key)
      (Json.decode content) (objectText fields) := by
  refine ⟨_, isObject_objectText plain (ne_nil_of_mem mem), rfl, ?_⟩
  exact ⟨_, mem_map_of_mem mem, rfl, content, rfl, rfl⟩

theorem lexes_fields : Json.Lexes (Json.commas (fields.map fun entry => Json.field entry.1 entry.2)) := by
  apply Json.closed_lexes.commas
  intro text mem
  rcases List.mem_map.mp mem with ⟨entry, isEntry, rfl⟩
  rcases plain entry isEntry with ⟨key, ⟨kind, isValue⟩, -⟩
  rw [← Json.text_compact]
  exact Json.closed_lexes.member (Json.framed_compact key) (Json.closed_lexes.isValue isValue)

end Entries

theorem commas_append_cons (nonempty : texts ≠ []) (text : Bytes) (rest : List Bytes) :
    Json.commas (texts ++ text :: rest) =
      Json.commas texts ++ 0x2c :: (text ++ rest.flatMap fun text => 0x2c :: text) := by
  rcases texts with _ | ⟨first, texts⟩
  · exact absurd rfl nonempty
  · simp [Json.commas]

theorem isContent_of_lexes {lead tail : Bytes} {before after : List (Bytes × Bytes)}
    (lexesLead : Json.Lexes lead) (nonempty : before ≠ [])
    (plain : ∀ entry ∈ before, PlainEntry entry) (isKey : Json.IsContent key)
    (lexes : Json.Lexes (lead ++
      (objectText (before ++ (key, Json.quoted (escapeText message)) :: after) ++ tail))) :
    Json.IsContent (escapeText message) := by
  let front := lead ++ (0x7b :: (Json.commas (before.map fun entry => Json.field entry.1 entry.2) ++
    0x2c :: (Json.quoted key ++ [0x3a])))
  let back := (after.map fun entry => Json.field entry.1 entry.2).flatMap (fun text => 0x2c :: text) ++
    0x7d :: tail
  have lexesFront : Json.Lexes front := by
    have brace : Json.Lexes [0x7b] := rfl
    have comma : Json.Lexes [0x2c] := rfl
    have colon : Json.Lexes [0x3a] := rfl
    exact lexesLead.append (brace.append ((lexes_fields plain).append (comma.append
      ((Json.lexes_string isKey).append colon))))
  have nonemptyTexts : (before.map fun entry => Json.field entry.1 entry.2) ≠ [] :=
    List.map_eq_nil_iff.not.mpr nonempty
  have split : lead ++ (objectText (before ++ (key, Json.quoted (escapeText message)) :: after) ++ tail) =
      front ++ 0x22 :: (escapeText message ++ 0x22 :: back) := by
    rw [objectText, map_append, map_cons, commas_append_cons nonemptyTexts]
    simp [front, back, Json.field, Json.quoted]
  rw [split] at lexes
  apply isContent_of_lex lexesFront
  rw [lexes]
  exact Option.some_ne_none _

section Signed

variable (settings : LogSettings) (alert : StoredAlert)

def signedFields : List (Bytes × Bytes) :=
  [(ascii "tenant_id", Json.quoted settings.tenantId),
    (ascii "timestamp", Json.quoted (settings.isoTime alert.ts)),
    (ascii "level", printInt alert.level.number), (ascii "ip", Json.quoted alert.ip),
    (ascii "incident_id", Json.quoted alert.incidentId),
    (ascii "mitre_id", Json.quoted alert.mitreId),
    (ascii "mitre_tactic", Json.quoted alert.mitreTactic),
    (ascii "message", Json.quoted (escapeText alert.message))] ++
    if settings.hmacKey = [] then []
    else [(ascii "hmac", Json.quoted (hexText (hmacS256 settings.hmacKey (jsonLine settings alert))))]

theorem length_flatMap_escapeAs (special : UInt8 → Bool) (message : Bytes) :
    (message.flatMap (escapeAs special)).length ≤ 2 * message.length := by
  induction message with
  | nil => exact le_rfl
  | cons byte rest ih =>
    have one : (escapeAs special byte).length ≤ 2 := by
      unfold escapeAs
      split <;> simp
    rw [flatMap_cons, length_append, length_cons]
    omega

theorem length_escMsg_le (special : UInt8 → Bool) {size : ℕ} (room : 2 * alertMsgLen ≤ size) :
    escMsg special size 0 alert.message = alert.message.flatMap (escapeAs special) ∧
      (alert.message.flatMap (escapeAs special)).length < 2 * alertMsgLen := by
  have short := alert.messageFits
  have bound := length_flatMap_escapeAs special alert.message
  exact ⟨escMsg_eq (by omega), by omega⟩

theorem printInt_natCast (number : ℕ) : printInt number = numeral number := by
  rw [printInt, if_neg (by omega), Int.natAbs_natCast]

theorem jsonLine_eq : jsonLine settings alert =
    jsonFront settings alert ++ (escapeText alert.message ++ ascii "\"") := by
  rcases length_escMsg_le alert mustEscape (show 2 * alertMsgLen ≤ alertMsgLen * 2 + 4 by decide) with
    ⟨escaped, bound⟩
  rw [jsonLine, escaped]
  apply copyInto_of_length_lt
  have level : (numeral alert.level.number).length ≤ 1 := by
    apply length_numeral_le (by decide)
    cases alert.level <;> decide
  have tenant := settings.tenantIdFits
  have iso := settings.isoTimeFits alert.ts
  have ip : alert.ip.length < 46 := alert.ipFits
  have mitre := alert.mitreIdFits
  have tactic := alert.mitreTacticFits
  have incident := alert.incidentIdFits
  have message : (alert.message.flatMap (escapeAs mustEscape)).length < 512 := bound
  simp [jsonFront, ascii, -length_flatMap]
  omega

theorem logAlertJsonSigned_eq : logAlertJsonSigned settings alert =
    objectText (signedFields settings alert) ++ [chr '\n'] := by
  have line := jsonLine_eq settings alert
  unfold logAlertJsonSigned signedFields
  split
  · rw [line]
    simp [jsonFront, objectText, Json.commas, Json.field, Json.quoted, printInt_natCast, ascii, chr]
  · dsimp only
    rw [line]
    simp [jsonFront, objectText, Json.commas, Json.field, Json.quoted, printInt_natCast, ascii, chr]

end Signed

theorem isContent_of_plain
    (plain : ∀ byte ∈ text, 0x20 ≤ byte ∧ byte < 0x80 ∧ byte ≠ 0x22 ∧ byte ≠ 0x5c) :
    Json.IsContent text := by
  induction text with
  | nil => rfl
  | cons byte rest ih =>
    rcases List.forall_mem_cons.mp plain with ⟨⟨shown, ascii, notQuote, notSlash⟩, plainRest⟩
    have step : Json.CharState.next .plain byte = some .plain := by
      rw [Json.CharState.next, if_neg notSlash, if_neg notQuote, if_pos ⟨shown, ascii⟩]
    unfold Json.IsContent
    rw [Json.read, step]
    exact ih plainRest

theorem isContent_hexText (bytes : Bytes) : Json.IsContent (hexText bytes) := by
  have digits : ∀ digit ∈ ascii "0123456789abcdef",
      0x20 ≤ digit ∧ digit < 0x80 ∧ digit ≠ 0x22 ∧ digit ≠ 0x5c := by decide
  exact isContent_of_plain fun digit mem => digits digit (mem_hexText mem)

theorem isContent_printInt (value : ℤ) : Json.IsContent (printInt value) := by
  have shown : ∀ byte : UInt8, isDigit byte = true ∨ byte = chr '-' →
      0x20 ≤ byte ∧ byte < 0x80 ∧ byte ≠ 0x22 ∧ byte ≠ 0x5c := by decide +kernel
  exact isContent_of_plain fun byte mem => shown byte (mem_printInt mem)

theorem isContent_orElseText (isText : Json.IsContent text) (isDefault : Json.IsContent default) :
    Json.IsContent (orElseText text default) := by
  unfold orElseText
  split
  · exact isDefault
  · exact isText

theorem plain_orElseText (isText : Cef.Plain text) (isDefault : Cef.Plain default) :
    Cef.Plain (orElseText text default) := by
  unfold orElseText
  split
  · exact isDefault
  · exact isText

section Json

variable {settings : LogSettings} {event : SiemEvent} (plain : PlainTexts settings event)

include plain

theorem plainEntry_signedFields (raw : Json.IsRaw event.alert.message) :
    ∀ entry ∈ signedFields settings event.alert, PlainEntry entry := by
  have message := (isContent_escapeText_iff _).mpr raw
  have mac : ∀ entry ∈ (if settings.hmacKey = [] then []
      else [(ascii "hmac", Json.quoted (hexText (hmacS256 settings.hmacKey
        (jsonLine settings event.alert))))]), PlainEntry entry := by
    split
    · exact fun entry mem => absurd mem not_mem_nil
    · intro entry mem
      rw [List.mem_singleton.mp mem]
      exact plainEntry_string (by decide) (isContent_hexText _)
  unfold signedFields
  rw [forall_mem_append]
  refine ⟨?_, mac⟩
  simp only [forall_mem_cons, not_mem_nil, false_implies, implies_true, and_true]
  exact ⟨plainEntry_string (by decide) plain.tenantId,
    plainEntry_string (by decide) (settings.isoTimeContent _), plainEntry_printInt (by decide) _,
    plainEntry_string (by decide) plain.ip, plainEntry_string (by decide) plain.incidentId,
    plainEntry_string (by decide) plain.mitreId, plainEntry_string (by decide) plain.mitreTactic,
    plainEntry_string (by decide) message⟩

theorem jsonRecord_signed (raw : Json.IsRaw event.alert.message) :
    JsonRecord (signedNames settings) event.alert.message
      (logAlertJsonSigned settings event.alert) := by
  have entries := plainEntry_signedFields plain raw
  have mem : (ascii "message", Json.quoted (escapeText event.alert.message)) ∈
      signedFields settings event.alert := by
    simp [signedFields]
  have holds := holdsMessage_objectText entries mem
  have names : ((signedFields settings event.alert).map entryMember).map Json.Member.name =
      signedNames settings := by
    unfold signedFields signedNames
    split <;> rfl
  rw [names, decode_escapeText] at holds
  exact ⟨_, ⟨logAlertJsonSigned_eq settings event.alert, newline_not_mem_objectText entries⟩, holds⟩

end Json

theorem keyOf_escape (word : Bytes) :
    Cef.keyOf (word.flatMap (escapeAs cefSpecial)) = Cef.keyOf word := by
  have parts : (word.flatMap (escapeAs cefSpecial)).takeWhile Cef.isKeyByte =
        word.takeWhile Cef.isKeyByte ∧
      (((word.flatMap (escapeAs cefSpecial)).dropWhile Cef.isKeyByte).head? = some 0x3d ↔
        (word.dropWhile Cef.isKeyByte).head? = some 0x3d) := by
    induction word with
    | nil => exact ⟨rfl, Iff.rfl⟩
    | cons byte rest ih =>
      rw [flatMap_cons]
      by_cases special : cefSpecial byte = true
      · have noKey : Cef.isKeyByte byte = false ∧ byte ≠ 0x3d := by
          have table : ∀ byte : UInt8, cefSpecial byte = true →
              Cef.isKeyByte byte = false ∧ byte ≠ 0x3d := by decide +kernel
          exact table byte special
        have slash : Cef.isKeyByte 0x5c = false := by decide
        rw [escapeAs, if_pos special]
        simp [noKey, slash, chr]
      · rw [escapeAs, if_neg special, singleton_append, takeWhile_cons, dropWhile_cons]
        by_cases isKey : Cef.isKeyByte byte = true
        · simpa [isKey] using ih
        · simp [isKey]
  simp [Cef.keyOf, parts.1, parts.2]

def cefExtension (alert : StoredAlert) : Bytes :=
  (ascii "src=" ++ alert.ip) ++ chr ' ' ::
    ((ascii "msg=" ++ alert.message.flatMap (escapeAs cefSpecial)) ++ chr ' ' :: ascii "act=alert")

theorem keys_cefExtension {alert : StoredAlert} (word : chr ' ' ∉ alert.ip) :
    Cef.keys (cefExtension alert) = [ascii "src", ascii "msg"] ++
      ((alert.message.splitOn (chr ' ')).tail.filterMap Cef.keyOf ++ [ascii "act"]) := by
  have source : Cef.keyOf (ascii "src=" ++ alert.ip) = some (ascii "src") :=
    @Cef.keyOf_of_key (ascii "src") (by decide) (by decide) alert.ip
  have sourceWord : chr ' ' ∉ ascii "src=" ++ alert.ip := by
    rw [mem_append, not_or]
    exact ⟨by decide, word⟩
  have act : Cef.keyOf (ascii "act=alert") = some (ascii "act") := by decide
  have escaped := @Cef.splitOn_flatMap UInt8 _ (chr ' ') (escapeAs cefSpecial) (by decide)
    (by decide +kernel) alert.message
  have whole : (cefExtension alert).splitOn (chr ' ') = (ascii "src=" ++ alert.ip) ::
      ((ascii "msg=" ++ alert.message.flatMap (escapeAs cefSpecial)).splitOn (chr ' ') ++
        [ascii "act=alert"]) := by
    rw [cefExtension, Lines.splitOn_append_cons, Lines.splitOn_append_cons,
      Lines.splitOn_of_not_mem sourceWord]
    rfl
  unfold Cef.keys
  change ((cefExtension alert).splitOn (chr ' ')).filterMap Cef.keyOf = _
  rw [whole, Cef.splitOn_append (by decide), escaped]
  rcases words : alert.message.splitOn (chr ' ') with _ | ⟨first, rest⟩
  · exact absurd words (splitOn_ne_nil _ _)
  · have message : Cef.keyOf (ascii "msg=" ++ first.flatMap (escapeAs cefSpecial)) =
        some (ascii "msg") := @Cef.keyOf_of_key (ascii "msg") (by decide) (by decide) _
    have same : (rest.map (·.flatMap (escapeAs cefSpecial))).filterMap Cef.keyOf =
        rest.filterMap Cef.keyOf := by
      rw [filterMap_map]
      apply filterMap_congr
      intro other _
      exact keyOf_escape other
    simp [source, act, message, same]

theorem logAlertCef_eq (settings : LogSettings) (alert : StoredAlert) : logAlertCef settings alert =
    ((cefHeader settings alert).flatMap (· ++ [0x7c]) ++ cefExtension alert) ++ [chr '\n'] := by
  rcases length_escMsg_le alert cefSpecial (show 2 * alertMsgLen ≤ alertMsgLen * 2 + 4 by decide) with
    ⟨escaped, -⟩
  rw [logAlertCef, escaped]
  simp [cefHeader, cefExtension, ascii, chr]

section CefLine

variable {settings : LogSettings} {event : SiemEvent} (plain : PlainTexts settings event)

include plain

theorem header_cefLine :
    Cef.header 7 ((cefHeader settings event.alert).flatMap (· ++ [0x7c]) ++ cefExtension event.alert) =
      some (cefHeader settings event.alert, cefExtension event.alert) := by
  have digits : ∀ number, Cef.Plain (numeral number) := by
    have table : ∀ byte : UInt8, isDigit byte = true → byte ≠ 0x7c ∧ byte ≠ 0x5c := by
      decide +kernel
    exact fun number byte mem => table byte (isDigit_of_mem_numeral mem)
  have stamp : Cef.Plain (settings.syslogTime event.alert.ts ++ ascii " CEF:0") :=
    List.forall_mem_append.mpr ⟨settings.syslogTimePlain _, by decide⟩
  apply @Cef.header_of_plain (cefHeader settings event.alert)
  unfold cefHeader
  simp only [forall_mem_cons, not_mem_nil, false_implies, implies_true, and_true]
  exact ⟨stamp, by decide +kernel, by decide +kernel, by decide +kernel,
    plain_orElseText plain.mitreIdPlain (by decide +kernel),
    plain_orElseText plain.mitreTacticPlain (by decide +kernel), digits _⟩

theorem newline_not_mem_cefLine (raw : Json.IsRaw event.alert.message) : chr '\n' ∉
    (cefHeader settings event.alert).flatMap (· ++ [0x7c]) ++ cefExtension event.alert := by
  have stamp := settings.syslogTimeLine event.alert.ts
  have mitre := newline_not_mem_of_isContent (isContent_orElseText plain.mitreId
    (show Json.IsContent (ascii "LG_ALERT") by decide))
  have tactic := newline_not_mem_of_isContent (isContent_orElseText plain.mitreTactic
    (show Json.IsContent (ascii "General") by decide))
  have severity := newline_not_mem_numeral (event.alert.level.number * 2)
  have ip := newline_not_mem_of_isContent plain.ip
  have message : chr '\n' ∉ event.alert.message.flatMap (escapeAs cefSpecial) := by
    intro mem
    rcases List.mem_flatMap.mp mem with ⟨byte, isByte, isBreak⟩
    have same : byte = chr '\n' := by
      unfold escapeAs at isBreak
      split at isBreak
      · rcases List.mem_cons.mp isBreak with isSlash | isBreak
        · exact absurd isSlash (by decide)
        · exact (List.mem_singleton.mp isBreak).symm
      · exact (List.mem_singleton.mp isBreak).symm
    exact newline_not_mem_of_isRaw raw (same ▸ isByte)
  simp only [cefHeader, cefExtension]
  simp [stamp, mitre, tactic, severity, ip, message]
  decide

theorem cefRecord_iff_keys (raw : Json.IsRaw event.alert.message) :
    CefRecord (cefHeader settings event.alert) (logAlertCef settings event.alert) ↔
      ∀ word ∈ (event.alert.message.splitOn (chr ' ')).tail, Cef.keyOf word = none := by
  have keys := keys_cefExtension plain.ipWord
  constructor
  · rintro ⟨line, extension, ⟨isText, -⟩, isHeader, isKeys⟩
    rw [logAlertCef_eq] at isText
    have isLine := append_cancel_right isText
    have parsed := header_cefLine plain
    rw [isLine] at parsed
    have isExtension : extension = cefExtension event.alert := by
      have both := isHeader.symm.trans parsed
      exact congrArg Prod.snd (Option.some.inj both)
    rw [isExtension, keys] at isKeys
    have none : (event.alert.message.splitOn (chr ' ')).tail.filterMap Cef.keyOf = [] := by
      have act : _ ++ [ascii "act"] = [] ++ [ascii "act"] := append_cancel_left isKeys
      exact append_cancel_right act
    exact fun word mem => List.filterMap_eq_nil_iff.mp none word mem
  · intro noKeys
    refine ⟨_, _, ⟨logAlertCef_eq settings event.alert, newline_not_mem_cefLine plain raw⟩,
      header_cefLine plain, ?_⟩
    rw [keys, List.filterMap_eq_nil_iff.mpr noKeys]
    rfl

end CefLine

section Siem

variable (settings : LogSettings) (event : SiemEvent)

def siemBefore : List (Bytes × Bytes) :=
  [(ascii "event_type", Json.quoted (orElseText event.eventType (ascii "alert"))),
    (ascii "tenant_id", Json.quoted settings.tenantId),
    (ascii "timestamp", printInt event.alert.ts), (ascii "sensor", Json.quoted event.sensorType),
    (ascii "level", Json.quoted (levelStr event.alert)), (ascii "ip", Json.quoted event.alert.ip),
    (ascii "mitre", Json.quoted (orElseText event.alert.mitreId (ascii "Unknown")))]

def siemAfter : List (Bytes × Bytes) :=
  [(ascii "risk_score", shownRisk event), (ascii "policy", Json.quoted event.policy)]

def siemFields : List (Bytes × Bytes) := siemBefore settings event ++
  (ascii "message", Json.quoted (escapeText event.alert.message)) :: siemAfter event

def epoch : Bytes := ascii "1970-01-01T00:00:00.000Z"

def mitreReference : Bytes := objectText
  [(ascii "source_name", Json.quoted (ascii "mitre-attack")),
    (ascii "external_id", Json.quoted (orElseText event.alert.mitreId (ascii "T1190")))]

def stixBefore : List (Bytes × Bytes) :=
  [(ascii "type", Json.quoted (ascii "indicator")), (ascii "spec_version", Json.quoted (ascii "2.1")),
    (ascii "id", Json.quoted (ascii "indicator--lg-" ++
      (printInt event.alert.ts ++ (ascii "-" ++ event.alert.ip)))),
    (ascii "created", Json.quoted epoch), (ascii "modified", Json.quoted epoch),
    (ascii "name", Json.quoted (ascii "Log Guardian " ++ orElseText event.eventType (ascii "alert"))),
    (ascii "pattern", Json.quoted (ascii "[ipv4-addr:value = '" ++ (event.alert.ip ++ ascii "']"))),
    (ascii "pattern_type", Json.quoted (ascii "stix")), (ascii "valid_from", Json.quoted epoch),
    (ascii "labels", 0x5b :: (Json.commas [Json.quoted (ascii "malicious-activity")] ++ [0x5d])),
    (ascii "external_references", 0x5b :: (Json.commas [mitreReference event] ++ [0x5d])),
    (ascii "x_lg_tenant", Json.quoted settings.tenantId),
    (ascii "x_lg_sensor", Json.quoted event.sensorType),
    (ascii "x_lg_level", Json.quoted (levelStr event.alert))]

def stixAfter : List (Bytes × Bytes) :=
  [(ascii "x_lg_risk", shownRisk event), (ascii "x_lg_policy", Json.quoted event.policy)]

def stixFields : List (Bytes × Bytes) := stixBefore settings event ++
  (ascii "x_lg_message", Json.quoted (escapeText event.alert.message)) :: stixAfter event

def bundleBefore : List (Bytes × Bytes) :=
  [(ascii "type", Json.quoted (ascii "bundle")),
    (ascii "id", Json.quoted (ascii "bundle--lg-" ++ printInt event.alert.ts))]

def bundleFields (object : Bytes) : List (Bytes × Bytes) :=
  bundleBefore event ++ [(ascii "objects", 0x5b :: (Json.commas [object] ++ [0x5d]))]

def siemLine : Bytes :=
  if isStix settings then objectText (bundleFields event (objectText (stixFields settings event)))
  else objectText (siemFields settings event)

theorem siemText_eq : siemFront settings event ++ (escapeText event.alert.message ++ siemBack event) =
    objectText (siemFields settings event) ++ [chr '\n'] := by
  simp [siemFront, siemBack, siemFields, siemBefore, siemAfter, objectText, Json.commas, Json.field,
    Json.quoted, ascii, chr]

theorem ascii_ofList (characters : List Char) :
    ascii (no_index (String.ofList characters)) = characters.map fun c => c.toNat.toUInt8 := by
  rw [ascii, String.toList_ofList]

set_option maxRecDepth 2000 in
theorem stixText_eq : stixFront settings event ++ (escapeText event.alert.message ++ stixBack event) =
    objectText (bundleFields event (objectText (stixFields settings event))) ++ [chr '\n'] := by
  simp only [stixFront, stixBack, stixFields, stixBefore, stixAfter, bundleFields, bundleBefore,
    mitreReference, epoch, objectText, Json.commas, Json.field, Json.quoted, map_cons, map_nil,
    flatMap_cons, flatMap_nil, append_assoc, cons_append, nil_append, ascii_ofList]
  rfl

theorem tenthsOf_le {value : ℚ} {bound : ℕ} (below : value < bound) :
    tenthsOf value ≤ 10 * bound + 1 := by
  have floor : (value * 10).floor < (10 * bound : ℕ) := by
    change ⌊value * 10⌋ < _
    rw [Int.floor_lt]
    push_cast
    linarith
  have next : tenthsOf value ≤ (value * 10).floor.toNat + 1 := by
    unfold tenthsOf
    dsimp only
    split <;> omega
  omega

theorem length_shownRisk_le : (shownRisk event).length ≤ 400 := by
  have below : (if 0 ≤ event.riskScore then event.riskScore else 0) < (2 ^ 1024 : ℕ) := by
    rw [Nat.cast_pow]
    split
    · exact event.riskScoreFits
    · exact pow_pos (by decide) 1024
  have small := tenthsOf_le below
  have large : 10 * 2 ^ 1024 + 1 < 10 ^ 310 := by decide +kernel
  unfold shownRisk
  generalize tenthsOf (if 0 ≤ event.riskScore then event.riskScore else 0) = tenths at small
  have units : (numeral (tenths / 10)).length ≤ 310 :=
    length_numeral_le (by decide) (lt_of_le_of_lt ((Nat.div_le_self _ _).trans small) large)
  have rest : (numeral (tenths % 10)).length ≤ 1 :=
    length_numeral_le (by decide) (Nat.mod_lt _ (by decide))
  change (numeral (tenths / 10) ++ chr '.' :: numeral (tenths % 10)).length ≤ 400
  rw [length_append, length_cons]
  omega

theorem length_printInt_ts : (printInt event.alert.ts).length ≤ 20 := by
  have small : event.alert.ts.natAbs < 10 ^ 19 :=
    lt_of_le_of_lt event.alert.tsFits (by decide)
  have digits := length_numeral_le (by decide) small
  unfold printInt
  split
  · rw [length_cons]
    omega
  · omega

theorem length_orElseText_le (text default : Bytes) :
    (orElseText text default).length ≤ text.length + default.length := by
  unfold orElseText
  split <;> omega

theorem sendToSiem_eq : sendToSiem settings event = some (siemPayload settings event) := by
  rcases length_escMsg_le event.alert siemSpecial (show 2 * alertMsgLen ≤ alertMsgLen * 2 by decide) with
    ⟨escaped, bound⟩
  have message : (event.alert.message.flatMap (escapeAs siemSpecial)).length < 512 := bound
  have tenant := settings.tenantIdFits
  have ip : event.alert.ip.length < 46 := event.alert.ipFits
  have mitre := event.alert.mitreIdFits
  have sensor := event.sensorTypeFits
  have type := event.eventTypeFits
  have policy := event.policyFits
  have risk := length_shownRisk_le event
  have ts := length_printInt_ts event
  have level : (levelStr event.alert).length ≤ 8 := by
    unfold levelStr
    split <;> decide
  have shownType := length_orElseText_le event.eventType (ascii "alert")
  have stixMitre := length_orElseText_le event.alert.mitreId (ascii "T1190")
  have siemMitre := length_orElseText_le event.alert.mitreId (ascii "Unknown")
  apply if_pos
  rw [siemPayload, escaped]
  split
  · rw [stixFront, stixBack]
    simp only [length_append]
    simp [ascii, -length_flatMap] at stixMitre shownType ⊢
    omega
  · rw [siemFront, siemBack]
    simp [ascii, -length_flatMap] at siemMitre shownType ⊢
    omega

theorem exists_siemPayload : ∃ front back, siemPayload settings event =
    (front ++ (event.alert.message.flatMap (escapeAs siemSpecial) ++ back)) ++ [chr '\n'] := by
  rcases length_escMsg_le event.alert siemSpecial (show 2 * alertMsgLen ≤ alertMsgLen * 2 by decide) with
    ⟨escaped, -⟩
  rw [siemPayload, escaped]
  split
  · refine ⟨stixFront settings event, ascii "\",\"x_lg_risk\":" ++ (shownRisk event ++
      (ascii ",\"x_lg_policy\":\"" ++ (event.policy ++ ascii "\"\x7d]\x7d"))), ?_⟩
    simp [stixBack, ascii, chr]
  · refine ⟨siemFront settings event, ascii "\",\"risk_score\":" ++ (shownRisk event ++
      (ascii ",\"policy\":\"" ++ (event.policy ++ ascii "\"\x7d"))), ?_⟩
    simp [siemBack, ascii, chr]

theorem siemPayload_eq {settings : LogSettings} {event : SiemEvent}
    (line : chr '\n' ∉ event.alert.message) :
    siemPayload settings event = siemLine settings event ++ [chr '\n'] := by
  rcases length_escMsg_le event.alert siemSpecial (show 2 * alertMsgLen ≤ alertMsgLen * 2 by decide) with
    ⟨escaped, -⟩
  rw [siemPayload, escaped, flatMap_siemSpecial line, siemLine]
  split
  · exact stixText_eq settings event
  · exact siemText_eq settings event

theorem newline_not_mem_message {settings : LogSettings} {event : SiemEvent} {line : Bytes}
    (oneLine : OneLine (siemPayload settings event) line) : chr '\n' ∉ event.alert.message := by
  rcases oneLine with ⟨isLine, noBreak⟩
  rcases exists_siemPayload settings event with ⟨front, back, isPayload⟩
  rw [isPayload] at isLine
  rw [← append_cancel_right isLine] at noBreak
  intro mem
  apply noBreak
  apply mem_append_right
  apply mem_append_left
  apply List.mem_flatMap.mpr
  exact ⟨chr '\n', mem, by decide⟩

end Siem

section SiemEntries

variable {settings : LogSettings} {event : SiemEvent} (plain : PlainTexts settings event)

theorem isContent_levelStr (alert : StoredAlert) : Json.IsContent (levelStr alert) := by
  unfold levelStr
  split <;> decide

include plain

theorem plainEntry_siemBefore : ∀ entry ∈ siemBefore settings event, PlainEntry entry := by
  unfold siemBefore
  simp only [forall_mem_cons, not_mem_nil, false_implies, implies_true, and_true]
  exact ⟨plainEntry_string (by decide) (isContent_orElseText plain.eventType (by decide)),
    plainEntry_string (by decide) plain.tenantId, plainEntry_printInt (by decide) _,
    plainEntry_string (by decide) plain.sensorType,
    plainEntry_string (by decide) (isContent_levelStr _), plainEntry_string (by decide) plain.ip,
    plainEntry_string (by decide) (isContent_orElseText plain.mitreId (by decide))⟩

theorem plainEntry_siemAfter : ∀ entry ∈ siemAfter event, PlainEntry entry := by
  unfold siemAfter
  simp only [forall_mem_cons, not_mem_nil, false_implies, implies_true, and_true]
  exact ⟨plainEntry_printTenths (by decide) _, plainEntry_string (by decide) plain.policy⟩

theorem plainEntry_stixAfter : ∀ entry ∈ stixAfter event, PlainEntry entry := by
  unfold stixAfter
  simp only [forall_mem_cons, not_mem_nil, false_implies, implies_true, and_true]
  exact ⟨plainEntry_printTenths (by decide) _, plainEntry_string (by decide) plain.policy⟩

theorem plainEntry_mitreReference (key : Bytes) (isKey : Json.IsContent key) :
    PlainEntry (key, 0x5b :: (Json.commas [mitreReference event] ++ [0x5d])) := by
  have entries : ∀ entry ∈ [(ascii "source_name", Json.quoted (ascii "mitre-attack")),
      (ascii "external_id", Json.quoted (orElseText event.alert.mitreId (ascii "T1190")))],
      PlainEntry entry := by
    simp only [forall_mem_cons, not_mem_nil, false_implies, implies_true, and_true]
    exact ⟨plainEntry_string (by decide) (by decide),
      plainEntry_string (by decide) (isContent_orElseText plain.mitreId (by decide))⟩
  exact plainEntry_array isKey (isValue_objectText entries (cons_ne_nil _ _))
    (newline_not_mem_objectText entries)

theorem plainEntry_stixBefore : ∀ entry ∈ stixBefore settings event, PlainEntry entry := by
  have epochs : ∀ key, Json.IsContent key → PlainEntry (key, Json.quoted epoch) :=
    fun key isKey => plainEntry_string isKey (by decide)
  have labels : PlainEntry (ascii "labels",
      0x5b :: (Json.commas [Json.quoted (ascii "malicious-activity")] ++ [0x5d])) :=
    plainEntry_array (by decide)
      (.string (show Json.IsContent (ascii "malicious-activity") by decide)) (by decide)
  have indicator : Json.IsContent (ascii "indicator--lg-" ++
      (printInt event.alert.ts ++ (ascii "-" ++ event.alert.ip))) :=
    .append (by decide) ((isContent_printInt _).append (.append (by decide) plain.ip))
  have name : Json.IsContent (ascii "Log Guardian " ++ orElseText event.eventType (ascii "alert")) :=
    .append (by decide) (isContent_orElseText plain.eventType (by decide))
  have pattern : Json.IsContent (ascii "[ipv4-addr:value = '" ++ (event.alert.ip ++ ascii "']")) :=
    .append (by decide) (plain.ip.append (by decide))
  unfold stixBefore
  simp only [forall_mem_cons, not_mem_nil, false_implies, implies_true, and_true]
  exact ⟨plainEntry_string (by decide) (by decide), plainEntry_string (by decide) (by decide),
    plainEntry_string (by decide) indicator, epochs _ (by decide), epochs _ (by decide),
    plainEntry_string (by decide) name, plainEntry_string (by decide) pattern,
    plainEntry_string (by decide) (by decide), epochs _ (by decide), labels,
    plainEntry_mitreReference plain _ (by decide), plainEntry_string (by decide) plain.tenantId,
    plainEntry_string (by decide) plain.sensorType,
    plainEntry_string (by decide) (isContent_levelStr _)⟩

omit plain in
theorem plainEntry_bundleBefore (event : SiemEvent) : ∀ entry ∈ bundleBefore event, PlainEntry entry := by
  unfold bundleBefore
  simp only [forall_mem_cons, not_mem_nil, false_implies, implies_true, and_true]
  exact ⟨plainEntry_string (by decide) (by decide),
    plainEntry_string (by decide) (.append (by decide) (isContent_printInt _))⟩

theorem jsonRecord_siem (raw : Json.IsRaw event.alert.message) :
    JsonRecord siemNames event.alert.message
      (objectText (siemFields settings event) ++ [chr '\n']) := by
  have message := (isContent_escapeText_iff _).mpr raw
  have entries : ∀ entry ∈ siemFields settings event, PlainEntry entry :=
    List.forall_mem_append.mpr ⟨plainEntry_siemBefore plain, List.forall_mem_cons.mpr
      ⟨plainEntry_string (by decide) message, plainEntry_siemAfter plain⟩⟩
  have holds := holdsMessage_objectText entries
    (mem_append_right (siemBefore settings event) mem_cons_self)
  rw [decode_escapeText] at holds
  exact ⟨_, ⟨rfl, newline_not_mem_objectText entries⟩, holds⟩

theorem stixRecord_siem (raw : Json.IsRaw event.alert.message) :
    StixRecord stixNames event.alert.message
      (objectText (bundleFields event (objectText (stixFields settings event))) ++ [chr '\n']) := by
  have message := (isContent_escapeText_iff _).mpr raw
  have entries : ∀ entry ∈ stixFields settings event, PlainEntry entry :=
    List.forall_mem_append.mpr ⟨plainEntry_stixBefore plain, List.forall_mem_cons.mpr
      ⟨plainEntry_string (by decide) message, plainEntry_stixAfter plain⟩⟩
  have holds := holdsMessage_objectText entries
    (mem_append_right (stixBefore settings event) mem_cons_self)
  rw [decode_escapeText] at holds
  have isValue := isValue_objectText entries (append_ne_nil_of_right_ne_nil _ (cons_ne_nil _ _))
  have bundle : ∀ entry ∈ bundleFields event (objectText (stixFields settings event)),
      PlainEntry entry := by
    unfold bundleFields
    rw [forall_mem_append, forall_mem_singleton]
    exact ⟨plainEntry_bundleBefore event,
      plainEntry_array (by decide) isValue (newline_not_mem_objectText entries)⟩
  refine ⟨_, _, ⟨rfl, newline_not_mem_objectText bundle⟩,
    isObject_objectText bundle (cons_ne_nil _ _), rfl, _,
    mem_map_of_mem (mem_append_right _ (List.mem_singleton.mpr rfl)), rfl, _, ?_, holds⟩
  simp [entryMember, Json.commas]

theorem siemRecord (raw : Json.IsRaw event.alert.message) :
    ∃ payload, sendToSiem settings event = some payload ∧
      if isStix settings then StixRecord stixNames event.alert.message payload
      else JsonRecord siemNames event.alert.message payload := by
  refine ⟨_, sendToSiem_eq settings event, ?_⟩
  rw [siemPayload_eq (newline_not_mem_of_isRaw raw), siemLine]
  split
  · exact stixRecord_siem plain raw
  · exact jsonRecord_siem plain raw

theorem isRaw_of_isObject {line : Bytes} {members : List Json.Member}
    (oneLine : OneLine (siemPayload settings event) line) (isObject : Json.IsObject line members) :
    Json.IsRaw event.alert.message := by
  have noBreak := newline_not_mem_message oneLine
  have isLine : siemLine settings event = line := by
    apply append_cancel_right (siemPayload_eq noBreak ▸ oneLine.1)
  have lexes := Json.closed_lexes.isObject isObject
  rw [← isLine, siemLine] at lexes
  apply (isContent_escapeText_iff _).mp
  split at lexes
  · let lead := 0x7b :: (Json.commas ((bundleBefore event).map fun entry => Json.field entry.1 entry.2) ++
      (ascii "," ++ (Json.quoted (ascii "objects") ++ ascii ":[")))
    have lexesLead : Json.Lexes lead := by
      have brace : Json.Lexes [0x7b] := rfl
      have rest : Json.Lexes (ascii "," ++ (Json.quoted (ascii "objects") ++ ascii ":[")) := rfl
      exact brace.append ((lexes_fields (plainEntry_bundleBefore event)).append rest)
    have split : objectText (bundleFields event (objectText (stixFields settings event))) =
        lead ++ (objectText (stixFields settings event) ++ ascii "]\x7d") := by
      simp [lead, objectText, bundleFields, bundleBefore, Json.commas, Json.field, ascii]
    rw [split] at lexes
    exact isContent_of_lexes lexesLead (cons_ne_nil _ _) (plainEntry_stixBefore plain) (by decide) lexes
  · have lexesWhole : Json.Lexes ([] ++ (objectText (siemFields settings event) ++ [])) := by
      rwa [append_nil, nil_append]
    exact isContent_of_lexes (show Json.Lexes [] from rfl) (cons_ne_nil _ _)
      (plainEntry_siemBefore plain) (by decide) lexesWhole

theorem isRaw_of_siemRecord {payload : Bytes} (sent : sendToSiem settings event = some payload)
    (record : if isStix settings then StixRecord stixNames event.alert.message payload
      else JsonRecord siemNames event.alert.message payload) : Json.IsRaw event.alert.message := by
  rw [sendToSiem_eq] at sent
  rw [← Option.some.inj sent] at record
  split at record
  · rcases record with ⟨line, members, oneLine, isObject, -⟩
    exact isRaw_of_isObject plain oneLine isObject
  · rcases record with ⟨line, oneLine, members, isObject, -⟩
    exact isRaw_of_isObject plain oneLine isObject

/-- The writers make one record each exactly of the alerts with plain messages. -/
theorem oneRecordEach_iff :
    OneRecordEach settings event ↔ PlainMessage event.alert.message := by
  constructor
  · rintro ⟨-, cef, payload, sent, record⟩
    have raw := isRaw_of_siemRecord plain sent record
    exact ⟨raw, (cefRecord_iff_keys plain raw).mp cef⟩
  · rintro ⟨raw, noKeys⟩
    exact ⟨jsonRecord_signed plain raw, (cefRecord_iff_keys plain raw).mpr noKeys, siemRecord plain raw⟩

end SiemEntries

def newYear (_ts : ℤ) : Bytes := ascii "2024-01-01T00:00:00+0000"

def newYearSyslog (_ts : ℤ) : Bytes := ascii "Jan 01 00:00:00"

def acme : Bytes := ascii "acme"

theorem length_acme : acme.length < 128 := by decide

theorem length_newYear (ts : ℤ) : (newYear ts).length < 64 :=
  show (newYear 0).length < 64 by decide

theorem isContent_newYear (ts : ℤ) : Json.IsContent (newYear ts) :=
  show Json.IsContent (newYear 0) by decide

theorem plain_newYearSyslog (ts : ℤ) : Cef.Plain (newYearSyslog ts) :=
  show Cef.Plain (newYearSyslog 0) by decide +kernel

theorem newline_not_mem_newYearSyslog (ts : ℤ) : chr '\n' ∉ newYearSyslog ts :=
  show chr '\n' ∉ newYearSyslog 0 by decide

def acmeSettings : LogSettings :=
  ⟨acme, [], ascii "json", newYear, newYearSyslog, length_acme, length_newYear, isContent_newYear,
    plain_newYearSyslog, newline_not_mem_newYearSyslog⟩

theorem length_nil_lt_ipStrLen : ([] : Bytes).length < ipStrLen := by decide

theorem length_nil_lt_sixteen : ([] : Bytes).length < 16 := by decide

theorem length_nil_lt_twentyFour : ([] : Bytes).length < 24 := by decide

theorem length_nil_lt_thirtyTwo : ([] : Bytes).length < 32 := by decide

theorem length_nil_lt_sixtyFour : ([] : Bytes).length < 64 := by decide

theorem natAbs_zero_le : (0 : ℤ).natAbs ≤ 2 ^ 63 := by decide

theorem zero_lt_double : (0 : ℚ) < 2 ^ 1024 := pow_pos (by decide) 1024

def messageEvent (message : Bytes) (fits : message.length < alertMsgLen) : SiemEvent :=
  ⟨⟨⟨⟨.warn, message⟩, [], 0, [], [], []⟩, fits, length_nil_lt_ipStrLen, length_nil_lt_sixteen,
    length_nil_lt_thirtyTwo, length_nil_lt_twentyFour, natAbs_zero_le⟩, [], [], 0, [],
    length_nil_lt_thirtyTwo, length_nil_lt_sixteen, length_nil_lt_sixtyFour, zero_lt_double⟩

theorem plainTexts_messageEvent (message : Bytes) (fits : message.length < alertMsgLen) :
    PlainTexts acmeSettings (messageEvent message fits) := by
  refine ⟨?_, rfl, not_mem_nil, rfl, rfl, ?_, rfl, ?_, rfl, rfl, rfl⟩
  · decide
  · exact fun byte mem => absurd mem not_mem_nil
  · exact fun byte mem => absurd mem not_mem_nil

def quotedMessage : Bytes := ascii "user \"x\" | denied"

theorem length_quotedMessage : quotedMessage.length < alertMsgLen := by decide

theorem oneRecordEach_iff_quoted :
    PlainTexts acmeSettings (messageEvent quotedMessage length_quotedMessage) ∧
      (OneRecordEach acmeSettings (messageEvent quotedMessage length_quotedMessage) ↔
        PlainMessage quotedMessage) :=
  ⟨plainTexts_messageEvent _ _, oneRecordEach_iff (plainTexts_messageEvent _ _)⟩

theorem count_of_oneLine {line : Bytes} (oneLine : OneLine text line) :
    text.count (chr '\n') = 1 := by
  rw [oneLine.1, count_append, List.count_eq_zero.mpr oneLine.2]
  rfl

def brokenMessage : Bytes := ascii "denied\nroot logged in"

theorem length_brokenMessage : brokenMessage.length < alertMsgLen := by decide

/-- A newline in a message makes two lines of each record. -/
theorem broken_twoLines :
    PlainTexts acmeSettings (messageEvent brokenMessage length_brokenMessage) ∧
      (logAlertJsonSigned acmeSettings
        (messageEvent brokenMessage length_brokenMessage).alert).count (chr '\n') = 2 ∧
      (logAlertCef acmeSettings
        (messageEvent brokenMessage length_brokenMessage).alert).count (chr '\n') = 2 ∧
      (siemPayload acmeSettings
        (messageEvent brokenMessage length_brokenMessage)).count (chr '\n') = 2 ∧
      ¬OneRecordEach acmeSettings (messageEvent brokenMessage length_brokenMessage) := by
  have two : (logAlertJsonSigned acmeSettings
      (messageEvent brokenMessage length_brokenMessage).alert).count (chr '\n') = 2 := by
    decide +kernel
  refine ⟨plainTexts_messageEvent _ _, two, by decide +kernel, by decide +kernel, ?_⟩
  rintro ⟨⟨line, oneLine, -⟩, -, -⟩
  have one := count_of_oneLine oneLine
  rw [two] at one
  exact absurd one (by decide)

end LogGuardian
