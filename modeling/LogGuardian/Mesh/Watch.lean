import LogGuardian.Ban.Producers
import LogGuardian.JsonText
import LogGuardian.Lib.Lines
import LogGuardian.Lib.QuotedSearch

/-!
# The etcd watch

`etcd_watch_thread` collects a response until the connection ends.
-/

namespace LogGuardian

open List

/-- `B64_TABLE`. -/
def base64Char (value : ℕ) : UInt8 :=
  (ascii "ABCDEFGHIJKLMNOPQRSTUVWXYZabcdefghijklmnopqrstuvwxyz0123456789+/").getD value 0

/-- `base64_encode` into a buffer that is large enough. -/
def base64Encode : Bytes → Bytes
  | [] => []
  | [first] =>
    let val := first.toNat * 65536
    [base64Char (val / 2 ^ 18 % 64), base64Char (val / 2 ^ 12 % 64), chr '=', chr '=']
  | [first, second] =>
    let val := first.toNat * 65536 + second.toNat * 256
    [base64Char (val / 2 ^ 18 % 64), base64Char (val / 2 ^ 12 % 64), base64Char (val / 2 ^ 6 % 64),
      chr '=']
  | first :: second :: third :: rest =>
    let val := first.toNat * 65536 + second.toNat * 256 + third.toNat
    base64Char (val / 2 ^ 18 % 64) :: base64Char (val / 2 ^ 12 % 64) ::
      base64Char (val / 2 ^ 6 % 64) :: base64Char (val % 64) :: base64Encode rest

/-- A ban as `etcd_mesh_publish` gets it; the texts are C strings. -/
structure MeshBan where
  ip : Bytes
  score : ℕ
  tactic : Bytes
  reason : Bytes
  ts : ℤ
  valid : isValidIp ip = true
  strings : 0 ∉ tactic ++ reason

/-- What stands behind the address in `val_raw`. -/
def MeshBan.jsonRest (ban : MeshBan) : Bytes :=
  ascii "\",\"score\":" ++ numeral ban.score ++ ascii ",\"tactic\":\"" ++ ban.tactic ++
    ascii "\",\"reason\":\"" ++ ban.reason ++ ascii "\",\"ts\":" ++ printInt ban.ts ++ ascii "\x7d"

/-- `val_raw` of `etcd_kv_put`. -/
def MeshBan.json (ban : MeshBan) : Bytes :=
  copyInto 512 (ascii "\x7b\"ip\":\"" ++ ban.ip ++ ban.jsonRest)

inductive CurlEnd where
  | ok | timedOut | failed
  deriving DecidableEq, Repr

def watchLines (body : Bytes) : List Bytes := (body.splitOn (chr '\n')).takeWhile (· ≠ [])

def watchLine (line : Bytes) : Option IpcMessage :=
  if hasLit line (ascii "\"PUT\"") || hasLit line (ascii "\"kv\"") then
    (processWatchEvent line).map directBan
  else none

/-- One round of `etcd_watch_thread`: the ban requests to the daemon. -/
def watchRound (curlEnd : CurlEnd) (body : Bytes) : List IpcMessage :=
  if curlEnd = .ok then (watchLines body).filterMap watchLine else []

def valueKey : Bytes := ascii "\"value\":\""

/-- The values of a text, in their order. -/
inductive HoldsValues : List MeshBan → Bytes → Prop where
  | nothing {text : Bytes} (absent : ¬valueKey <:+: text) : HoldsValues [] text
  | event {ban : MeshBan} {bans : List MeshBan} {before rest : Bytes} {stop : UInt8}
      (absent : ¬valueKey <:+: before) (foreign : stop ∉ valueKey)
      (later : HoldsValues bans (chr '"' :: rest)) :
      HoldsValues (ban :: bans)
        (before ++ stop :: (valueKey ++ (base64Encode ban.json ++ chr '"' :: rest)))

structure WatchResult where
  text : Bytes
  bans : List MeshBan
  nonempty : text ≠ []
  oneLine : chr '\n' ∉ text
  holds : HoldsValues bans text
  marked : bans ≠ [] → hasLit text (ascii "\"PUT\"") = true ∨ hasLit text (ascii "\"kv\"") = true

def watchBody (results : List WatchResult) : Bytes :=
  Lines.text (chr '\n') (results.map WatchResult.text)

structure WatchRound where
  curlEnd : CurlEnd
  results : List WatchResult

def WatchRound.events (round : WatchRound) : List MeshBan := round.results.flatMap WatchResult.bans

def WatchRound.requests (round : WatchRound) : List IpcMessage :=
  watchRound round.curlEnd (watchBody round.results)

/-- Every event is applied once, in order, and nothing else. -/
def AppliedOnce (rounds : List WatchRound) : Prop :=
  rounds.flatMap WatchRound.requests =
    (rounds.flatMap WatchRound.events).map fun ban => directBan ban.ip

/-- The connection ended normally and no result has two events, or there was no event. -/
def WatchRound.Kept (round : WatchRound) : Prop :=
  (round.curlEnd = .ok ∧ ∀ result ∈ round.results, result.bans.length ≤ 1) ∨ round.events = []

theorem base64DecodeByte_char : ∀ value < 64, base64DecodeByte (base64Char value) = some value := by
  decide +kernel

theorem base64Char_ne_pad : ∀ value < 64, base64Char value ≠ chr '=' := by
  decide +kernel

variable {byte : UInt8} {room : ℕ} {rest text : Bytes} {round : WatchRound}

theorem toUInt8_eq {value : ℕ} (same : value = byte.toNat) : value.toUInt8 = byte := by
  rw [same]
  exact UInt8.ofNat_toNat

theorem base64Decode_group (first second third : UInt8) (rest : Bytes) (fits : 2 < room) :
    let val := first.toNat * 65536 + second.toNat * 256 + third.toNat
    base64Decode (base64Char (val / 2 ^ 18 % 64) :: base64Char (val / 2 ^ 12 % 64) ::
        base64Char (val / 2 ^ 6 % 64) :: base64Char (val % 64) :: rest) room =
      first :: second :: third :: base64Decode rest (room - 3) := by
  intro val
  have isVal : val = first.toNat * 65536 + second.toNat * 256 + third.toNat := rfl
  clear_value val
  have small : ∀ value : ℕ, value % 64 < 64 := fun value => Nat.mod_lt _ (by omega)
  have firstLt := first.toNat_lt
  have secondLt := second.toNat_lt
  have thirdLt := third.toNat_lt
  have low : ((val / 2 ^ 18 % 64 * 4 + val / 2 ^ 12 % 64 / 16) % 256).toUInt8 = first := by
    apply toUInt8_eq
    omega
  have middle : (val / 2 ^ 12 % 64 % 16 * 16 + val / 2 ^ 6 % 64 / 4).toUInt8 = second := by
    apply toUInt8_eq
    omega
  have high : (val / 2 ^ 6 % 64 % 4 * 64 + val % 64).toUInt8 = third := by
    apply toUInt8_eq
    omega
  rw [base64Decode, if_neg (by omega)]
  simp only [base64DecodeByte_char _ (small _), base64Char_ne_pad _ (small _), if_false, low, middle,
    high]
  rfl

theorem base64Decode_single (first : UInt8) (fits : 2 < room) :
    base64Decode (base64Encode [first]) room = [first] := by
  have small : ∀ value : ℕ, value % 64 < 64 := fun value => Nat.mod_lt _ (by omega)
  have firstLt := first.toNat_lt
  have low : ((first.toNat * 65536 / 2 ^ 18 % 64 * 4 + first.toNat * 65536 / 2 ^ 12 % 64 / 16) %
      256).toUInt8 = first := by
    apply toUInt8_eq
    omega
  rw [base64Encode, base64Decode, if_neg (by omega)]
  simp only [base64DecodeByte_char _ (small _), low]
  rfl

theorem base64Decode_pair (first second : UInt8) (fits : 2 < room) :
    base64Decode (base64Encode [first, second]) room = [first, second] := by
  have small : ∀ value : ℕ, value % 64 < 64 := fun value => Nat.mod_lt _ (by omega)
  have firstLt := first.toNat_lt
  have secondLt := second.toNat_lt
  have isVal : ∃ val, val = first.toNat * 65536 + second.toNat * 256 := ⟨_, rfl⟩
  rcases isVal with ⟨val, isVal⟩
  have low : ((val / 2 ^ 18 % 64 * 4 + val / 2 ^ 12 % 64 / 16) % 256).toUInt8 = first := by
    apply toUInt8_eq
    omega
  have middle : (val / 2 ^ 12 % 64 % 16 * 16 + val / 2 ^ 6 % 64 / 4).toUInt8 = second := by
    apply toUInt8_eq
    omega
  rw [base64Encode, base64Decode, if_neg (by omega), ← isVal]
  simp only [base64DecodeByte_char _ (small _), base64Char_ne_pad _ (small _), if_false, low,
    middle]
  rfl

theorem base64Decode_take_encode (groups : ℕ) (text : Bytes) (fits : 3 * groups + 2 < room) :
    base64Decode ((base64Encode text).take (4 * groups + 3)) room = text.take (3 * groups) := by
  induction groups generalizing text room with
  | zero =>
    rcases base64Encode text with _ | ⟨_, _ | ⟨_, _ | ⟨_, rest⟩⟩⟩ <;> simp [base64Decode]
  | succ groups ih =>
    have roomy : 2 < room := by omega
    rcases text with _ | ⟨first, _ | ⟨second, _ | ⟨third, rest⟩⟩⟩
    · simp [base64Encode, base64Decode]
    · rw [take_of_length_le (by simp [base64Encode]; omega), base64Decode_single first roomy,
        take_of_length_le (by simp; omega)]
    · rw [take_of_length_le (by simp [base64Encode]; omega), base64Decode_pair first second roomy,
        take_of_length_le (by simp; omega)]
    · have count : 4 * (groups + 1) + 3 = 4 * groups + 3 + 4 := by omega
      have bytes : 3 * (groups + 1) = 3 * groups + 3 := by omega
      rw [base64Encode, count, bytes]
      simp only [take_succ_cons]
      rw [base64Decode_group _ _ _ _ roomy, ih rest (by omega)]

theorem jsonGetStr_append {part key : Bytes} {outsize : ℕ}
    (passes : Search.Passes ([chr '"'] ++ key ++ ascii "\":\"") part
      ([chr '"'] ++ key ++ ascii "\":\"" ++ rest)) :
    jsonGetStr (part ++ ([chr '"'] ++ key ++ ascii "\":\"" ++ rest)) key outsize =
      some (copyInto outsize (rest.takeWhile (· ≠ chr '"'))) := by
  rw [jsonGetStr, findLit, Search.find_append_of_isPrefix passes (prefix_append _ _)]
  simp

theorem takeWhile_of_quote (plain : chr '"' ∉ text) :
    (text ++ chr '"' :: rest).takeWhile (· ≠ chr '"') = text := by
  rw [takeWhile_append_of_pos, takeWhile_cons_of_neg (by simp), append_nil]
  intro byte mem
  simpa using fun same : byte = chr '"' => plain (same ▸ mem)

theorem mem_base64Encode (mem : byte ∈ base64Encode text) :
    byte = chr '=' ∨ ∃ value < 64, byte = base64Char value := by
  have small : ∀ value : ℕ, value % 64 < 64 := fun value => Nat.mod_lt _ (by omega)
  fun_induction base64Encode text with
  | case1 => cases mem
  | case2 first val =>
    simp only [mem_cons, not_mem_nil, or_false] at mem
    rcases mem with rfl | rfl | rfl | rfl
    · exact Or.inr ⟨_, small _, rfl⟩
    · exact Or.inr ⟨_, small _, rfl⟩
    · exact Or.inl rfl
    · exact Or.inl rfl
  | case3 first second val =>
    simp only [mem_cons, not_mem_nil, or_false] at mem
    rcases mem with rfl | rfl | rfl | rfl
    · exact Or.inr ⟨_, small _, rfl⟩
    · exact Or.inr ⟨_, small _, rfl⟩
    · exact Or.inr ⟨_, small _, rfl⟩
    · exact Or.inl rfl
  | case4 first second third rest val ih =>
    simp only [mem_cons] at mem
    rcases mem with rfl | rfl | rfl | rfl | mem
    · exact Or.inr ⟨_, small _, rfl⟩
    · exact Or.inr ⟨_, small _, rfl⟩
    · exact Or.inr ⟨_, small _, rfl⟩
    · exact Or.inr ⟨_, small _, rfl⟩
    · exact ih mem

theorem quote_not_mem_base64Encode (text : Bytes) : chr '"' ∉ base64Encode text := by
  intro mem
  have table : ∀ value < 64, chr '"' ≠ base64Char value := by decide +kernel
  rcases mem_base64Encode mem with pad | ⟨value, small, isChar⟩
  · exact absurd pad (by decide)
  · exact table value small isChar

namespace MeshBan

variable (ban : MeshBan)

def jsonAfterIp : Bytes :=
  ascii ",\"score\":" ++ numeral ban.score ++ ascii ",\"tactic\":\"" ++ ban.tactic ++
    ascii "\",\"reason\":\"" ++ ban.reason ++ ascii "\",\"ts\":" ++ printInt ban.ts ++ ascii "\x7d"

theorem jsonRest_eq : ban.jsonRest = chr '"' :: ban.jsonAfterIp := by
  have first : ascii "\",\"score\":" = chr '"' :: ascii ",\"score\":" := by decide
  simp [jsonRest, jsonAfterIp, first]

theorem zero_not_mem_jsonAfterIp : 0 ∉ ban.jsonAfterIp := by
  have literals : 0 ∉ ascii ",\"score\":" ∧ 0 ∉ ascii ",\"tactic\":\"" ∧
      0 ∉ ascii "\",\"reason\":\"" ∧ 0 ∉ ascii "\",\"ts\":" ∧ 0 ∉ ascii "\x7d" := by
    decide
  have score : 0 ∉ numeral ban.score := by
    intro mem
    exact absurd (isDigit_of_mem_numeral mem) (by decide)
  have ts : 0 ∉ printInt ban.ts := by
    intro mem
    rcases mem_printInt mem with digit | minus
    · exact absurd digit (by decide)
    · exact absurd minus (by decide)
  have strings := ban.strings
  simp only [jsonAfterIp, mem_append, not_or] at strings ⊢
  exact ⟨⟨⟨⟨⟨⟨⟨⟨literals.1, score⟩, literals.2.1⟩, strings.1⟩, literals.2.2.1⟩, strings.2⟩,
    literals.2.2.2.1⟩, ts⟩, literals.2.2.2.2⟩

theorem ip_facts : ban.ip.length ≤ 45 ∧ chr '"' ∉ ban.ip ∧ 0 ∉ ban.ip := by
  refine ⟨length_le_of_isValidIp ban.valid, ?_, ?_⟩
  · intro mem
    exact absurd (isAddressByte_of_isValidIp ban.valid mem) (by decide)
  · intro mem
    exact absurd (isAddressByte_of_isValidIp ban.valid mem) (by decide)

theorem take_json : ∃ rest, ban.json.take 381 =
    [chr '\x7b'] ++ ([chr '"'] ++ ascii "ip" ++ ascii "\":\"" ++ (ban.ip ++ chr '"' :: rest)) ∧
      0 ∉ ban.json.take 381 := by
  rcases ban.ip_facts with ⟨short, -, noNul⟩
  have head : ascii "\x7b\"ip\":\"" = [chr '\x7b'] ++ ([chr '"'] ++ ascii "ip" ++ ascii "\":\"") := by
    decide
  have headLength : (ascii "\x7b\"ip\":\"").length = 7 := by decide
  have headPlain : 0 ∉ ascii "\x7b\"ip\":\"" := by decide
  have whole : ban.json.take 381 =
      ascii "\x7b\"ip\":\"" ++ ban.ip ++ chr '"' :: ban.jsonAfterIp.take (373 - ban.ip.length) := by
    rw [json, copyInto, take_take, Nat.min_eq_left (by omega), jsonRest_eq, take_append,
      take_of_length_le (by rw [length_append]; omega), length_append, headLength]
    have count : 381 - (7 + ban.ip.length) = 373 - ban.ip.length + 1 := by omega
    rw [count, take_succ_cons]
  refine ⟨ban.jsonAfterIp.take (373 - ban.ip.length), ?_, ?_⟩
  · rw [whole, head]
    simp
  · rw [whole]
    have rest : 0 ∉ ban.jsonAfterIp.take (373 - ban.ip.length) :=
      fun mem => ban.zero_not_mem_jsonAfterIp (mem_of_mem_take mem)
    simp only [mem_append, mem_cons, not_or]
    exact ⟨⟨headPlain, noNul⟩, by decide, rest⟩

theorem processWatchEvent_of_carries {bans : List MeshBan} {text : Bytes}
    (holds : HoldsValues (ban :: bans) text) : processWatchEvent text = some ban.ip := by
  rcases ban.ip_facts with ⟨short, noQuote, -⟩
  rcases ban.take_json with ⟨more, starts, noNul⟩
  have valueText : valueKey = [chr '"'] ++ ascii "value" ++ ascii "\":\"" := by decide
  rcases holds with _ | @⟨_, _, before, rest, stop, absent, foreign, later⟩
  have value : jsonGetStr (before ++ stop :: (valueKey ++ (base64Encode ban.json ++ chr '"' :: rest)))
      (ascii "value") 512 = some ((base64Encode ban.json).take 511) := by
    have passes := @Search.passes_of_stop _ valueKey before
      (valueKey ++ (base64Encode ban.json ++ chr '"' :: rest)) stop foreign absent
    rw [valueText] at passes ⊢
    rw [append_cons, jsonGetStr_append passes,
      takeWhile_of_quote (quote_not_mem_base64Encode ban.json)]
    rfl
  have decoded : (base64Decode ((base64Encode ban.json).take 511) 512).takeWhile (· ≠ 0) =
      ban.json.take 381 := by
    have groups := base64Decode_take_encode 127 ban.json (show 3 * 127 + 2 < 512 by omega)
    rw [groups, takeWhile_eq_self_iff]
    intro byte mem
    simpa using fun same : byte = 0 => noNul (same ▸ mem)
  have address : jsonGetStr (ban.json.take 381) (ascii "ip") 64 = some ban.ip := by
    have clashes : Search.Clashes ([chr '"'] ++ ascii "ip" ++ ascii "\":\"") [chr '\x7b'] := by
      decide
    rw [starts, jsonGetStr_append (Search.passes_of_clashes clashes _), takeWhile_of_quote noQuote,
      copyInto_of_length_lt (by omega)]
  have check : (if isIpv6Addr ban.ip then (inetPton6 ban.ip).map fun _ => ban.ip
      else (inetPton4 ban.ip).map fun _ => ban.ip) = some ban.ip := by
    rcases family : isIpv6Addr ban.ip with _ | _
    · rcases inetPton4_of_valid ban.valid family with ⟨bits, parsed⟩
      simp [parsed]
    · rcases inetPton6_of_valid ban.valid family with ⟨bytes, parsed⟩
      simp [parsed]
  simp only [processWatchEvent, value, Option.bind_eq_bind, Option.bind_some, decoded, address, check]

end MeshBan

theorem WatchResult.watchLine_eq (result : WatchResult) :
    watchLine result.text = result.bans.head?.map fun ban => directBan ban.ip := by
  rcases result with ⟨text, bans, nonempty, oneLine, holds, marked⟩
  rcases bans with _ | ⟨ban, bans⟩
  · rcases holds with ⟨absent⟩
    have valueText : valueKey = [chr '"'] ++ ascii "value" ++ ascii "\":\"" := by decide
    have nothing : jsonGetStr text (ascii "value") 512 = none := by
      rw [jsonGetStr, findLit, ← valueText, Search.find_eq_none_iff.mpr absent]
      rfl
    simp [watchLine, processWatchEvent, nothing]
  · have isMarked := marked (cons_ne_nil _ _)
    rw [watchLine, if_pos (by simpa using isMarked), ban.processWatchEvent_of_carries holds]
    rfl

theorem watchLines_watchBody (results : List WatchResult) :
    watchLines (watchBody results) = results.map WatchResult.text := by
  have plain : ∀ line ∈ results.map WatchResult.text, chr '\n' ∉ line := by
    rw [forall_mem_map]
    exact fun result _ => result.oneLine
  have filled : ∀ line ∈ results.map WatchResult.text, decide (line ≠ []) = true := by
    rw [forall_mem_map]
    exact fun result _ => decide_eq_true result.nonempty
  have split := Lines.splitOn_text_append plain []
  rw [append_nil] at split
  rw [watchLines, watchBody, split, takeWhile_append_of_pos filled]
  simp

def firstBans (results : List WatchResult) : List MeshBan :=
  results.filterMap fun result => result.bans.head?

theorem WatchRound.requests_eq (round : WatchRound) : round.requests =
    if round.curlEnd = .ok then (firstBans round.results).map fun ban => directBan ban.ip
    else [] := by
  rw [requests, watchRound, watchLines_watchBody, filterMap_map, firstBans, map_filterMap]
  have each : watchLine ∘ WatchResult.text =
      fun result : WatchResult => result.bans.head?.map fun ban => directBan ban.ip :=
    funext WatchResult.watchLine_eq
  rw [each]

theorem firstBans_of_single {results : List WatchResult}
    (single : ∀ result ∈ results, result.bans.length ≤ 1) :
    firstBans results = results.flatMap WatchResult.bans := by
  induction results with
  | nil => rfl
  | cons result results ih =>
    rw [forall_mem_cons] at single
    rw [firstBans, filterMap_cons, ← firstBans, ih single.2, flatMap_cons]
    rcases shape : result.bans with _ | ⟨ban, _ | ⟨next, bans⟩⟩
    · rfl
    · rfl
    · simp [shape] at single

theorem length_firstBans (results : List WatchResult) :
    (firstBans results).length ≤ (results.flatMap WatchResult.bans).length ∧
      ((results.flatMap WatchResult.bans).length ≤ (firstBans results).length →
        ∀ result ∈ results, result.bans.length ≤ 1) := by
  induction results with
  | nil => simp [firstBans]
  | cons result results ih =>
    rw [firstBans, filterMap_cons, ← firstBans, flatMap_cons, length_append,
      forall_mem_cons]
    rcases shape : result.bans with _ | ⟨ban, bans⟩
    · simpa using ih
    · simp only [head?_cons, length_cons]
      refine ⟨by omega, ?_⟩
      intro enough
      exact ⟨by omega, ih.2 (by omega)⟩

theorem WatchRound.length_requests_le (round : WatchRound) :
    round.requests.length ≤ round.events.length := by
  have short := (length_firstBans round.results).1
  rw [requests_eq]
  split
  · simpa [events] using short
  · exact Nat.zero_le _

theorem WatchRound.kept_of_length (enough : round.events.length ≤ round.requests.length) :
    round.Kept := by
  rw [requests_eq] at enough
  split at enough
  · rename_i normal
    rw [length_map] at enough
    exact Or.inl ⟨normal, (length_firstBans round.results).2 enough⟩
  · exact Or.inr (List.length_eq_zero_iff.mp (Nat.le_zero.mp enough))

theorem WatchRound.requests_of_kept (kept : round.Kept) :
    round.requests = round.events.map fun ban => directBan ban.ip := by
  rcases kept with ⟨normal, single⟩ | none
  · rw [requests_eq, if_pos normal, firstBans_of_single single, events]
  · have short := round.length_requests_le
    rw [none, length_nil, Nat.le_zero, length_eq_zero_iff] at short
    rw [short, none, map_nil]

/-- Every event of a run is applied once exactly if every round keeps its events. -/
theorem appliedOnce_iff (rounds : List WatchRound) :
    AppliedOnce rounds ↔ ∀ round ∈ rounds, round.Kept := by
  constructor
  · intro applied
    have lengths := congrArg length applied
    rw [length_map] at lengths
    clear applied
    induction rounds with
    | nil => simp
    | cons round rounds ih =>
      have short : ∀ rounds : List WatchRound, (rounds.flatMap WatchRound.requests).length ≤
          (rounds.flatMap WatchRound.events).length := by
        intro rounds
        rw [length_flatMap, length_flatMap]
        exact sum_le_sum fun round _ => round.length_requests_le
      have shortRounds := short rounds
      have shortRound := round.length_requests_le
      rw [flatMap_cons, flatMap_cons, length_append, length_append] at lengths
      rw [forall_mem_cons]
      exact ⟨WatchRound.kept_of_length (by omega), ih (by omega)⟩
  · intro kept
    rw [AppliedOnce, map_flatMap]
    apply flatMap_congr
    intro round mem
    exact WatchRound.requests_of_kept (kept round mem)

theorem meshBan_strings : 0 ∉ ascii "TA0043" ++ ascii "scan" := by decide

def meshBan (ip : Bytes) (valid : isValidIp ip = true) : MeshBan :=
  ⟨ip, 90, ascii "TA0043", ascii "scan", 1700000000, valid, meshBan_strings⟩

theorem meshIps_valid : isValidIp (ascii "203.0.113.1") = true ∧ isValidIp (ascii "203.0.113.2") = true := by
  decide

def meshFirst : MeshBan := meshBan (ascii "203.0.113.1") meshIps_valid.1

def meshSecond : MeshBan := meshBan (ascii "203.0.113.2") meshIps_valid.2

def twoEventsText : Bytes :=
  ascii "\x7b\"kv\":" ++ chr '\x7b' :: (valueKey ++ (base64Encode meshFirst.json ++ chr '"' ::
    (ascii "\x7d\x7d,\x7b\"kv\":" ++ chr '\x7b' :: (valueKey ++
      (base64Encode meshSecond.json ++ chr '"' :: ascii "\x7d\x7d")))))

theorem holdsValues_twoEventsText : HoldsValues [meshFirst, meshSecond] twoEventsText := by
  apply HoldsValues.event (by decide) (by decide)
  have later : HoldsValues [meshSecond] ((chr '"' :: ascii "\x7d\x7d,\x7b\"kv\":") ++ chr '\x7b' ::
      (valueKey ++ (base64Encode meshSecond.json ++ chr '"' :: ascii "\x7d\x7d"))) := by
    apply HoldsValues.event (by decide) (by decide)
    exact HoldsValues.nothing (by decide)
  exact later

theorem twoEventsText_line : twoEventsText ≠ [] ∧ chr '\n' ∉ twoEventsText ∧
    hasLit twoEventsText (ascii "\"kv\"") = true := by
  decide +kernel

def twoEvents : WatchResult :=
  ⟨twoEventsText, [meshFirst, meshSecond], twoEventsText_line.1, twoEventsText_line.2.1,
    holdsValues_twoEventsText, fun _ => Or.inr twoEventsText_line.2.2⟩

/-- The second event of a line is lost, and after a timeout both are. -/
theorem mesh_bans_lost :
    watchRound .ok (watchBody [twoEvents]) = [directBan (ascii "203.0.113.1")] ∧
      watchRound .timedOut (watchBody [twoEvents]) = [] ∧
      ¬AppliedOnce [⟨.ok, [twoEvents]⟩] ∧ ¬AppliedOnce [⟨.timedOut, [twoEvents]⟩] := by
  have first : watchRound .ok (watchBody [twoEvents]) = [directBan (ascii "203.0.113.1")] := by
    decide +kernel
  refine ⟨first, rfl, ?_, ?_⟩
  · intro applied
    have lengths := congrArg length applied
    rw [flatMap_singleton, WatchRound.requests, first] at lengths
    simp [WatchRound.events, twoEvents] at lengths
  · intro applied
    have lengths := congrArg length applied
    simp [WatchRound.requests, watchRound, WatchRound.events, twoEvents] at lengths

end LogGuardian
