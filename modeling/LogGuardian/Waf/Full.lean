import LogGuardian.Schema.Request
import LogGuardian.Waf.Fired
import LogGuardian.Waf.Headers

/-!
# The three stages of the WAF
-/

namespace LogGuardian

open List

inductive WasmVerdict where
  | pass | block | tarpit | log
  deriving DecidableEq, Repr

/-- The configuration, and what `wasm_plugin_analyze` answers to a request, with the reason it
writes. -/
structure FullEngine where
  cfg : WafConfig := {}
  wasmPluginAnalyze : Bytes → WasmVerdict × Bytes

/-- The arguments of `waf_analyze_full`, the minute of the call, and the bytes that happen to be in
the buffer for the headers. -/
structure FullRequest where
  url : Bytes
  body : Bytes
  userAgent : Bytes
  method : Bytes
  path : Bytes
  srcIp : Option Bytes
  host : Bytes
  cookie : Bytes
  now : ℤ
  memory : ℕ → UInt8

def reasonText (text : Bytes) : String := String.ofList (text.map fun byte => Char.ofNat byte.toNat)

def headersText (out : OutCursor) : Bytes :=
  ((List.range (out.n + 1)).map out.cells).takeWhile (· ≠ 0)

def schemaPath (url path : Bytes) : Bytes :=
  let urlPath := (copyInto 1024 url).takeWhile (· ≠ 0)
  if urlPath = [] then path else urlPath

def FullRequest.schemaRequest (request : FullRequest) : SchemaRequest where
  method := request.method
  path := schemaPath request.url request.path
  body := request.body
  srcIp := request.srcIp
  headers := some (headersText
    (buildHeadersJson request.userAgent request.host request.cookie 1024 request.memory))
  now := request.now

def FullRequest.wasmJson (request : FullRequest) : Bytes :=
  copyInto 2048 (ascii "\x7b\"method\":\"" ++ request.method ++ ascii "\",\"path\":\"" ++
    request.path ++ ascii "\",\"url\":\"" ++ (request.url.take 512).takeWhile (· ≠ 0) ++
    ascii "\",\"src_ip\":\"" ++ request.srcIp.getD [] ++ ascii "\",\"url_len\":" ++
    numeral request.url.length ++ ascii ",\"body_len\":" ++ numeral request.body.length ++
    ascii "\x7d")

inductive StageEnd where
  | returned (r : WafResult)
  | continued (r : WafResult)
  deriving DecidableEq, Repr

def schemaStage (strict : Bool) (sv : SchemaValidationResult) : StageEnd :=
  match sv.status with
  | .block => .returned (addMatch {} .schemaViolation 15 (reasonText sv.reason))
  | .warn =>
    if strict ∧ 80 ≤ sv.idorScore then
      .returned (addMatch {} .schemaViolation 15 "BOLA/IDOR strict block")
    else
      let r := addMatch {} .schemaViolation 5 (reasonText sv.reason)
      .continued (if 80 ≤ sv.idorScore then
        addMatch r .idor (sv.idorScore / 20).toNat "BOLA/IDOR pattern" else r)
  | .pass | .unknown => .continued {}

def wasmStage (answer : WasmVerdict × Bytes) (r : WafResult) : StageEnd :=
  match answer.1 with
  | .block =>
    .returned (addMatch r .wasmBlock 20
      (if answer.2 = [] then "Wasm plugin blocked" else reasonText answer.2))
  | .tarpit => .continued (addMatch r .wasmBlock 8 "Wasm plugin: tarpit")
  | .pass | .log => .continued r

def mergeClassic (r classic : WafResult) : WafResult where
  totalScore := r.totalScore + classic.totalScore
  matched := r.matched ++ classic.matched.take (8 - r.matched.length)
  dominant := if classic.dominant ≠ .none then classic.dominant else r.dominant

def schemaAnswer (world : SchemaWorld) (request : FullRequest) :
    SchemaValidationResult × SchemaWorld :=
  if world.registry.isSome then schemaValidateRequestV2 world request.schemaRequest
  else (passedResult, world)

def wafAnalyzeFull (engine : FullEngine) (world : SchemaWorld) (request : FullRequest) :
    WafResult × SchemaWorld :=
  let checked := schemaAnswer world request
  let result :=
    match schemaStage world.strictGlobal checked.1 with
    | .returned r => r
    | .continued r =>
      match wasmStage (engine.wasmPluginAnalyze request.wasmJson) r with
      | .returned r => r
      | .continued r =>
        mergeClassic r
          (wafAnalyze engine.cfg request.url request.body request.userAgent request.method)
  (result, checked.2)

def strictIdor (strict : Bool) (sv : SchemaValidationResult) : Bool :=
  decide (sv.status = .warn) && strict && decide (80 ≤ sv.idorScore)

def schemaTable (strict : Bool) (sv : SchemaValidationResult) : List WafRule :=
  [⟨decide (sv.status = .block), .schemaViolation, 15, reasonText sv.reason⟩,
    ⟨strictIdor strict sv, .schemaViolation, 15, "BOLA/IDOR strict block"⟩,
    ⟨decide (sv.status = .warn) && !strictIdor strict sv,
      .schemaViolation, 5, reasonText sv.reason⟩,
    ⟨decide (sv.status = .warn) && !strictIdor strict sv && decide (80 ≤ sv.idorScore),
      .idor, (sv.idorScore / 20).toNat, "BOLA/IDOR pattern"⟩]

def wasmTable (answer : WasmVerdict × Bytes) : List WafRule :=
  [⟨decide (answer.1 = .block), .wasmBlock, 20,
      if answer.2 = [] then "Wasm plugin blocked" else reasonText answer.2⟩,
    ⟨decide (answer.1 = .tarpit), .wasmBlock, 8, "Wasm plugin: tarpit"⟩]

def fullFired (engine : FullEngine) (world : SchemaWorld) (request : FullRequest) :
    List WafMatch :=
  let sv := (schemaAnswer world request).1
  let answer := engine.wasmPluginAnalyze request.wasmJson
  let classic := wafFired engine.cfg request.url request.body request.userAgent request.method
  let plugins := firedEntries (wasmTable answer) ++ if answer.1 = .block then [] else classic
  firedEntries (schemaTable world.strictGlobal sv) ++
    if sv.status = .block ∨ strictIdor world.strictGlobal sv then [] else plugins

/-- A result that sums up the rules that fired, as the declaration of `WafResult` says. -/
structure FaithfulSummary (fired : List WafMatch) (r : WafResult) : Prop where
  total : r.totalScore = scoreSum fired
  dominant : 0 < r.totalScore →
    ∃ entry ∈ fired, entry.category = r.dominant ∧ ∀ other ∈ fired, other.score ≤ entry.score

/-- A match that `add_match` makes dominant. -/
def ScoresPoints (entry : WafMatch) : Prop := 0 < entry.score ∧ entry.category ≠ .none

theorem scoresPoints_firedEntries {rules : List WafRule}
    (counted : ∀ rule ∈ rules, rule.fires → ScoresPoints rule.entry) :
    ∀ entry ∈ firedEntries rules, ScoresPoints entry := by
  intro entry mem
  simp only [firedEntries, mem_map, mem_filter] at mem
  rcases mem with ⟨rule, ⟨known, fires⟩, rfl⟩
  exact counted rule known fires

theorem matched_foldl (entries : List WafMatch) {r : WafResult} (few : r.matched.length ≤ 8) :
    (entries.foldl addEntry r).matched = (r.matched ++ entries).take 8 := by
  induction entries generalizing r with
  | nil => simp [take_of_length_le few]
  | cons entry entries ih =>
    rw [foldl_cons]
    by_cases room : r.matched.length < 8
    · have added : (addEntry r entry).matched = r.matched ++ [entry] := if_pos room
      rw [ih (by rw [added]; simpa using room), added]
      simp
    · have full : (addEntry r entry).matched = r.matched := if_neg room
      rw [ih (by rwa [full]), full]
      rw [take_append_of_le_length (by omega), take_append_of_le_length (by omega)]

theorem dominant_foldl {entries : List WafMatch} (counted : ∀ entry ∈ entries, ScoresPoints entry)
    (r : WafResult) :
    (entries.foldl addEntry r).dominant =
      (entries.getLast?.map WafMatch.category).getD r.dominant := by
  induction entries using reverseRecOn with
  | nil => rfl
  | append_singleton entries entry ih =>
    have positive := (counted entry (by simp)).1
    simp [addEntry, addMatch, positive]

attribute [ext] WafResult

theorem mergeClassic_foldl {first second : List WafMatch}
    (countedFirst : ∀ entry ∈ first, ScoresPoints entry) (counted : ∀ entry ∈ second, ScoresPoints entry) :
    mergeClassic (first.foldl addEntry {}) (second.foldl addEntry {}) =
      (first ++ second).foldl addEntry {} := by
  have started : ({} : WafResult).matched.length ≤ 8 := Nat.zero_le 8
  have both : ∀ entry ∈ first ++ second, ScoresPoints entry := by
    intro entry mem
    exact (List.mem_append.mp mem).elim (countedFirst entry) (counted entry)
  apply WafResult.ext
  · simp only [mergeClassic, totalScore_foldl]
    simp [scoreSum]
  · simp only [mergeClassic, matched_foldl _ started, nil_append]
    rw [take_append, take_take, length_take]
    congr 2
    omega
  · simp only [mergeClassic, dominant_foldl countedFirst, dominant_foldl counted,
      dominant_foldl both]
    rcases second.eq_nil_or_concat with rfl | ⟨earlier, last, rfl⟩
    · simp
    · have named := (counted last (by simp)).2
      simp [named]

theorem scoresPoints_wafFired (cfg : WafConfig) (url body userAgent method : Bytes) :
    ∀ entry ∈ wafFired cfg url body userAgent method, ScoresPoints entry := by
  unfold wafFired
  split_ifs
  · apply scoresPoints_firedEntries
    simp [payloadTable, requestTable, ScoresPoints]
  · simp

theorem scoresPoints_schemaTable (strict : Bool) (sv : SchemaValidationResult) :
    ∀ entry ∈ firedEntries (schemaTable strict sv), ScoresPoints entry := by
  apply scoresPoints_firedEntries
  simp only [schemaTable, forall_mem_cons, not_mem_nil, false_imp_iff, implies_true,
    and_true, ScoresPoints, ne_eq, reduceCtorEq, not_false_eq_true, Nat.ofNat_pos, Bool.and_eq_true,
    decide_eq_true_eq, true_and]
  rintro ⟨-, high⟩
  omega

theorem scoresPoints_wasmTable (answer : WasmVerdict × Bytes) :
    ∀ entry ∈ firedEntries (wasmTable answer), ScoresPoints entry := by
  apply scoresPoints_firedEntries
  simp [wasmTable, ScoresPoints]

section Stages

variable (strict : Bool) (sv : SchemaValidationResult) (answer : WasmVerdict × Bytes)

theorem schemaStage_eq :
    schemaStage strict sv =
      if sv.status = .block ∨ strictIdor strict sv then
        .returned ((firedEntries (schemaTable strict sv)).foldl addEntry {})
      else .continued ((firedEntries (schemaTable strict sv)).foldl addEntry {}) := by
  simp only [schemaTable, foldl_firedEntries_cons]
  rcases status : sv.status with _ | _ | _ | _
  · simp [schemaStage, strictIdor, status]
  · by_cases high : 80 ≤ sv.idorScore
    · rcases strict with _ | _
      · simp [schemaStage, strictIdor, status, addEntry]
      · simp [schemaStage, strictIdor, status, high, addEntry]
    · simp [schemaStage, strictIdor, status, high, addEntry]
  · simp [schemaStage, strictIdor, status, addEntry]
  · simp [schemaStage, strictIdor, status]

theorem wasmStage_eq (r : WafResult) :
    wasmStage answer r =
      if answer.1 = .block then .returned ((firedEntries (wasmTable answer)).foldl addEntry r)
      else .continued ((firedEntries (wasmTable answer)).foldl addEntry r) := by
  simp only [wasmTable, foldl_firedEntries_cons]
  rcases verdict : answer.1 with _ | _ | _ | _
  · simp [wasmStage, verdict]
  · simp [wasmStage, verdict, addEntry]
  · simp [wasmStage, verdict, addEntry]
  · simp [wasmStage, verdict]

end Stages

section Summary

variable (engine : FullEngine) (world : SchemaWorld) (request : FullRequest)

theorem wafAnalyzeFull_eq_foldl :
    (wafAnalyzeFull engine world request).1 =
      (fullFired engine world request).foldl addEntry {} := by
  simp only [wafAnalyzeFull, fullFired]
  generalize (schemaAnswer world request).1 = sv
  generalize engine.wasmPluginAnalyze request.wasmJson = answer
  rw [schemaStage_eq]
  by_cases refused : sv.status = .block ∨ strictIdor world.strictGlobal sv = true
  · simp [refused]
  · simp only [refused, wasmStage_eq]
    by_cases blocked : answer.1 = .block
    · simp [blocked]
    · simp only [blocked, if_false]
      rw [wafAnalyze_eq_foldl, ← foldl_append, ← append_assoc]
      apply mergeClassic_foldl
      · intro entry mem
        rcases List.mem_append.mp mem with inSchema | inPlugins
        · exact scoresPoints_schemaTable _ _ entry inSchema
        · exact scoresPoints_wasmTable _ entry inPlugins
      · exact scoresPoints_wafFired _ _ _ _ _

theorem scoresPoints_fullFired : ∀ entry ∈ fullFired engine world request, ScoresPoints entry := by
  intro entry mem
  simp only [fullFired, mem_append] at mem
  rcases mem with inSchema | later
  · exact scoresPoints_schemaTable _ _ entry inSchema
  · split_ifs at later
    · exact absurd later not_mem_nil
    · exact scoresPoints_wasmTable _ entry (by simpa using later)
    · rcases List.mem_append.mp later with inPlugins | classic
      · exact scoresPoints_wasmTable _ entry inPlugins
      · exact scoresPoints_wafFired _ _ _ _ _ entry classic

theorem totalScore_wafAnalyzeFull :
    (wafAnalyzeFull engine world request).1.totalScore =
      scoreSum (fullFired engine world request) := by
  rw [wafAnalyzeFull_eq_foldl, totalScore_foldl]
  exact Nat.zero_add _

theorem dominant_wafAnalyzeFull {last : WafMatch}
    (isLast : (fullFired engine world request).getLast? = some last) :
    (wafAnalyzeFull engine world request).1.dominant = last.category := by
  rw [wafAnalyzeFull_eq_foldl, dominant_foldl (scoresPoints_fullFired engine world request), isLast]
  rfl

/-- The result sums up the rules that fired exactly if the last of them is of the category of one
with the highest score. -/
theorem faithfulSummary_wafAnalyzeFull_iff :
    FaithfulSummary (fullFired engine world request) (wafAnalyzeFull engine world request).1 ↔
      ∀ last ∈ (fullFired engine world request).getLast?,
        ∃ entry ∈ fullFired engine world request, entry.category = last.category ∧
          ∀ other ∈ fullFired engine world request, other.score ≤ entry.score := by
  have total := totalScore_wafAnalyzeFull engine world request
  constructor
  · intro faithful last isLast
    rw [← dominant_wafAnalyzeFull engine world request isLast]
    apply faithful.dominant
    have mem := List.mem_of_getLast? isLast
    rw [total]
    apply Nat.lt_of_lt_of_le (scoresPoints_fullFired engine world request last mem).1
    exact single_le_sum (fun _ _ => Nat.zero_le _) _ (mem_map_of_mem mem)
  · intro highest
    refine ⟨total, fun positive => ?_⟩
    rcases isLast : (fullFired engine world request).getLast? with _ | last
    · rw [total, getLast?_eq_none_iff.mp isLast] at positive
      exact absurd positive (Nat.lt_irrefl 0)
    · rw [dominant_wafAnalyzeFull engine world request isLast]
      exact highest last isLast

end Summary

def quietWorld : SchemaWorld where
  registry := none
  strictGlobal := false
  rateBuckets := fun _ => ⟨[], 0, 0⟩
  idorTrack := fun _ => ⟨[], [], 0, 0⟩
  stats := ⟨0, 0, 0, 0, 0⟩

def plainEngine : FullEngine := { wasmPluginAnalyze := fun _ => (.pass, []) }

def traversalRequest : FullRequest where
  url := ascii "/../123"
  body := []
  userAgent := ascii "Mozilla/5.0"
  method := ascii "GET"
  path := ascii "/../123"
  srcIp := some (ascii "203.0.113.7")
  host := []
  cookie := []
  now := 0
  memory := fun _ => 0

theorem fullFired_traversalRequest :
    fullFired plainEngine quietWorld traversalRequest =
      [⟨.lfi, 8, "LFI/Path Traversal tespit edildi"⟩,
        ⟨.idor, 2, "Sayisal ID tarama pattern (IDOR adayi)"⟩] := by
  decide +kernel

/-- The traversal scores eight points and the number two, and the number is called dominant. -/
theorem dominant_not_highest :
    (wafAnalyzeFull plainEngine quietWorld traversalRequest).1.dominant = .idor ∧
      (fullFired plainEngine quietWorld traversalRequest).map
          (fun entry => (entry.category, entry.score)) = [(.lfi, 8), (.idor, 2)] ∧
      ¬FaithfulSummary (fullFired plainEngine quietWorld traversalRequest)
        (wafAnalyzeFull plainEngine quietWorld traversalRequest).1 := by
  have fired := fullFired_traversalRequest
  have dominant : (wafAnalyzeFull plainEngine quietWorld traversalRequest).1.dominant = .idor :=
    dominant_wafAnalyzeFull _ _ _ (by rw [fired]; rfl)
  refine ⟨dominant, by rw [fired]; rfl, fun faithful => ?_⟩
  have positive : 0 < (wafAnalyzeFull plainEngine quietWorld traversalRequest).1.totalScore := by
    rw [faithful.total, fired]
    decide
  rcases faithful.dominant positive with ⟨entry, mem, same, highest⟩
  simp only [fired, mem_cons, not_mem_nil, or_false, forall_eq_or_imp]
    at mem highest
  rcases mem with rfl | rfl
  · exact absurd same (by decide)
  · exact absurd highest.1 (by decide)

end LogGuardian
