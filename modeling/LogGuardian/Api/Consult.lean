import LogGuardian.Lib.ExpiringCache
import LogGuardian.Api.PostBan
import LogGuardian.Waf.Rules

/-!
# `GET /api/v1/consult`

`handle_get_consult` with its cache of 128 answers.
-/

namespace LogGuardian

structure ConsultQuery where
  ip : Bytes
  method : Bytes
  path : Bytes
  userAgent : Bytes
  deriving DecidableEq, Repr

/-- The parameters of a request with their defaults; `none` without a path. -/
def consultQuery (req : Bytes) : Option ConsultQuery :=
  (queryParamValue req (ascii "path") 2048).map fun pathRaw =>
    let methodRaw := (parseQueryParam req (ascii "method") 16).getD (ascii "GET")
    let method := decodeQueryField methodRaw 16
    { ip := (parseQueryParam req (ascii "ip") 64).getD (ascii "127.0.0.1")
      method := if method = [] then ascii "GET" else method
      path := decodeQueryField pathRaw 2048
      userAgent := decodeQueryField ((parseQueryParam req (ascii "ua") 512).getD []) 512 }

structure ConsultAnswer where
  allow : Bool
  score : ℕ
  sqli : Bool
  deriving DecidableEq, Repr

def consultAnswer (engine : WafEngine) (query : ConsultQuery) : ConsultAnswer :=
  let wr := wafAnalyze engine.cfg query.path [] query.userAgent query.method
  let sqli := detectSqli engine query.path []
  let block := sqli || wafShouldBan engine.cfg wr || (wr.matched ≠ [] && 7 ≤ wr.totalScore)
  { allow := !block, score := wr.totalScore, sqli }

def consultHash (hash : UInt64) (part : Bytes) : UInt64 :=
  (part ++ [chr '|']).foldl (fun hash byte => (hash ^^^ byte.toUInt64) * 1099511628211) hash

def consultCacheKey (ip method path : Bytes) : UInt64 :=
  let hash := [ip, method, path].foldl consultHash 1469598103934665603
  if hash = 0 then 1 else hash

def ConsultQuery.cacheKey (query : ConsultQuery) : UInt64 :=
  consultCacheKey query.ip query.method query.path

abbrev ConsultCache := List (ExpiringCache.Slot UInt64 ConsultAnswer)

def emptyConsultCache : ConsultCache := List.replicate 128 ⟨0, 0, ⟨false, 0, false⟩⟩

/-- `api_server_set_consult_cache_ttl`. -/
def consultCacheTtl (sec : ℤ) : ℤ := if 0 < sec ∧ sec ≤ 300 then sec else 0

def consultCacheLookup (ttl : ℤ) (key : UInt64) (now : ℤ) (cache : ConsultCache) :
    Option ConsultAnswer :=
  if ttl ≤ 0 then none else ExpiringCache.lookup key now cache

def consultCacheStore (ttl : ℤ) (key : UInt64) (answer : ConsultAnswer) (now : ℤ)
    (cache : ConsultCache) : ConsultCache :=
  if ttl ≤ 0 then cache
  else ExpiringCache.store (key % 128).toNat ⟨key, now + ttl, answer⟩ now cache

structure ConsultEvent where
  consultAuth : Bool := true
  globalRateOk : Bool := true
  ipRateOk : Bool := true
  req : Bytes
  lookupAt : ℤ
  storeAt : ℤ
  deriving DecidableEq, Repr

inductive ConsultReply where
  | unauthorized
  | rateLimited
  | missingPath
  | answer (given : ConsultAnswer) (cached : Bool)
  deriving DecidableEq, Repr

def ConsultReply.text : ConsultReply → Bytes
  | .unauthorized =>
    http403Forbidden ++ ascii "\x7b\"success\":false,\"error\":\"unauthorized\"\x7d"
  | .rateLimited => http429TooMany ++ ascii "\x7b\"allow\":false,\"error\":\"rate limit\"\x7d"
  | .missingPath => http400Bad ++ ascii "\x7b\"allow\":false,\"error\":\"missing path\"\x7d"
  | .answer given cached =>
    let suffix := if cached then ascii ",\"cached\":true\x7d" else ascii "\x7d"
    let score := ascii (toString given.score)
    if given.allow then
      http200Ok ++ ascii "\x7b\"allow\":true,\"score\":" ++ score ++ ascii ",\"sqli\":false" ++ suffix
    else
      http403Forbidden ++ ascii "\x7b\"allow\":false,\"score\":" ++ score ++ ascii ",\"sqli\":" ++
        ascii (if given.sqli then "true" else "false") ++ suffix

section Handler

variable (engine : WafEngine) (ttl : ℤ)

def handleGetConsult (event : ConsultEvent) (cache : ConsultCache) : ConsultReply × ConsultCache :=
  if !event.consultAuth then (.unauthorized, cache)
  else if !event.globalRateOk then (.rateLimited, cache)
  else
    match consultQuery event.req with
    | none => (.missingPath, cache)
    | some query =>
      if !event.ipRateOk then (.rateLimited, cache)
      else
        match consultCacheLookup ttl query.cacheKey event.lookupAt cache with
        | some given => (.answer given true, cache)
        | none =>
          let given := consultAnswer engine query
          (.answer given false,
            consultCacheStore ttl query.cacheKey given event.storeAt cache)

structure ConsultState where
  cache : ConsultCache := emptyConsultCache
  served : List (ConsultQuery × ConsultAnswer) := []

def consultStep (state : ConsultState) (event : ConsultEvent) : ConsultState :=
  let handled := handleGetConsult engine ttl event state.cache
  { cache := handled.2
    served :=
      match handled.1, consultQuery event.req with
      | .answer given _, some query => state.served ++ [(query, given)]
      | _, _ => state.served }

/-- The rules and the block rule cannot tell the two requests apart. -/
def ConsultQuery.Alike (first second : ConsultQuery) : Prop :=
  first.path = second.path ∧ first.method = second.method ∧
    SameAgentClass first.userAgent second.userAgent

instance (first second : ConsultQuery) : Decidable (first.Alike second) := by
  unfold ConsultQuery.Alike
  infer_instance

/-- Requests of the run with the same cache key are alike. -/
def KeysTellApart (events : List ConsultEvent) : Prop :=
  ∀ first ∈ events, ∀ second ∈ events, ∀ query ∈ consultQuery first.req,
    ∀ other ∈ consultQuery second.req, query.cacheKey = other.cacheKey → query.Alike other

instance (events : List ConsultEvent) : Decidable (KeysTellApart events) := by
  unfold KeysTellApart
  infer_instance

variable {engine ttl}

theorem consultAnswer_congr {first second : ConsultQuery} (alike : first.Alike second) :
    consultAnswer engine first = consultAnswer engine second := by
  rcases alike with ⟨path, method, agent⟩
  simp [consultAnswer, path, method, wafAnalyze_congr agent]

theorem cacheKey_ne_zero (query : ConsultQuery) : query.cacheKey ≠ 0 := by
  unfold ConsultQuery.cacheKey consultCacheKey
  dsimp only
  split
  · decide
  · assumption

/-- The answer goes with the key for a request of the run. -/
def AnsweredIn (engine : WafEngine) (events : List ConsultEvent) (key : UInt64)
    (answer : ConsultAnswer) : Prop :=
  ∃ event ∈ events, ∃ query ∈ consultQuery event.req,
    query.cacheKey = key ∧ consultAnswer engine query = answer

structure Transparent (engine : WafEngine) (events : List ConsultEvent) (state : ConsultState) :
    Prop where
  explained : ExpiringCache.Explained 0 (AnsweredIn engine events) state.cache
  faithful : ∀ entry ∈ state.served, entry.2 = consultAnswer engine entry.1

theorem handleGetConsult_cases (event : ConsultEvent) (cache : ConsultCache) :
    (∃ reply, handleGetConsult engine ttl event cache = (reply, cache) ∧
        ∀ given cached, reply ≠ .answer given cached) ∨
      (∃ query given, consultQuery event.req = some query ∧
        ExpiringCache.lookup query.cacheKey event.lookupAt cache = some given ∧
        handleGetConsult engine ttl event cache = (.answer given true, cache)) ∨
      (∃ query, consultQuery event.req = some query ∧
        handleGetConsult engine ttl event cache =
          (.answer (consultAnswer engine query) false,
            consultCacheStore ttl query.cacheKey (consultAnswer engine query) event.storeAt
              cache)) := by
  unfold handleGetConsult
  split
  · exact Or.inl ⟨_, rfl, by simp⟩
  split
  · exact Or.inl ⟨_, rfl, by simp⟩
  split
  · exact Or.inl ⟨_, rfl, by simp⟩
  rename_i query read
  split
  · exact Or.inl ⟨_, rfl, by simp⟩
  split
  · rename_i given hit
    have found : ExpiringCache.lookup query.cacheKey event.lookupAt cache = some given := by
      unfold consultCacheLookup at hit
      split at hit
      · cases hit
      · exact hit
    exact Or.inr (Or.inl ⟨query, given, read, found, rfl⟩)
  · exact Or.inr (Or.inr ⟨query, read, rfl⟩)

theorem explained_consultCacheStore {Goes : UInt64 → ConsultAnswer → Prop} {cache : ConsultCache}
    {key : UInt64} {answer : ConsultAnswer} {now : ℤ}
    (explained : ExpiringCache.Explained 0 Goes cache) (goes : Goes key answer) :
    ExpiringCache.Explained 0 Goes (consultCacheStore ttl key answer now cache) := by
  unfold consultCacheStore
  split
  · exact explained
  · exact ExpiringCache.explained_store explained goes

theorem transparent_consultStep {events : List ConsultEvent} (tells : KeysTellApart events)
    {state : ConsultState} {event : ConsultEvent} (asked : event ∈ events)
    (transparent : Transparent engine events state) :
    Transparent engine events (consultStep engine ttl state event) := by
  rcases transparent with ⟨explained, faithful⟩
  have grown : ∀ {query : ConsultQuery} {given : ConsultAnswer},
      given = consultAnswer engine query →
      ∀ entry ∈ state.served ++ [(query, given)], entry.2 = consultAnswer engine entry.1 := by
    intro query given right entry mem
    rcases List.mem_append.mp mem with old | new
    · exact faithful entry old
    · rw [List.mem_singleton.mp new]
      exact right
  rcases handleGetConsult_cases event state.cache with
    ⟨reply, handled, noAnswer⟩ | ⟨query, given, read, hit, handled⟩ | ⟨query, read, handled⟩
  · have quiet : consultStep engine ttl state event = state := by
      rw [consultStep, handled]
      cases reply with
      | answer given cached => exact absurd rfl (noAnswer given cached)
      | unauthorized => rfl
      | rateLimited => rfl
      | missingPath => rfl
    rw [quiet]
    exact ⟨explained, faithful⟩
  · rw [consultStep, handled, read]
    refine ⟨explained, grown ?_⟩
    rcases ExpiringCache.goes_of_lookup explained (cacheKey_ne_zero query) hit with
      ⟨earlier, askedEarlier, other, readEarlier, sameKey, answered⟩
    rw [← answered]
    apply consultAnswer_congr
    exact tells earlier askedEarlier event asked other readEarlier query read sameKey
  · rw [consultStep, handled, read]
    refine ⟨?_, grown rfl⟩
    apply explained_consultCacheStore explained
    exact ⟨event, asked, query, read, rfl, rfl⟩

theorem transparent_initial (events : List ConsultEvent) : Transparent engine events {} := by
  constructor
  · intro slot mem
    left
    rw [List.eq_of_mem_replicate mem]
  · intro entry mem
    cases mem

/-- Every answer of a run in which requests with the same key are alike is the answer that the
rules give without the cache. -/
theorem consult_cache_transparent (engine : WafEngine) (ttl : ℤ) {events : List ConsultEvent}
    (tells : KeysTellApart events) :
    ∀ entry ∈ (Machine.run (consultStep engine (consultCacheTtl ttl)) {} events).served,
      entry.2 = consultAnswer engine entry.1 := by
  have guarded : Machine.Guarded (consultStep engine (consultCacheTtl ttl))
      (fun _ event => event ∈ events) {} events :=
    Machine.guarded_of_forall_mem (fun _ mem _ => mem) _
  have transparent : Transparent engine events
      (Machine.run (consultStep engine (consultCacheTtl ttl)) {} events) := by
    apply Machine.run_invariant_of_guarded (Transparent engine events) _ _ guarded
    · intro state event asked
      exact transparent_consultStep tells asked
    · exact transparent_initial events
  exact transparent.faithful

end Handler

def quietEngine : WafEngine where
  pcreEngineMatch _ := false
  highEntropy _ := false

def agentRequest (userAgent : String) (now : ℤ) : ConsultEvent where
  req := ascii ("GET /api/v1/consult?path=/shop&ua=" ++ userAgent ++ " HTTP/1.1\r\n\r\n")
  lookupAt := now
  storeAt := now

theorem consult_cache_transparent_for_browsers :
    KeysTellApart [agentRequest "Mozilla" 1000, agentRequest "Safari" 1001] ∧
      ∀ entry ∈ (Machine.run (consultStep quietEngine (consultCacheTtl 60)) {}
          [agentRequest "Mozilla" 1000, agentRequest "Safari" 1001]).served,
        entry.2 = consultAnswer quietEngine entry.1 := by
  have tells : KeysTellApart [agentRequest "Mozilla" 1000, agentRequest "Safari" 1001] := by
    decide +kernel
  exact ⟨tells, consult_cache_transparent quietEngine 60 tells⟩

/-- A scanner asks after a browser for the same path. -/
theorem scanner_served_browser_answer :
    (Machine.run (consultStep quietEngine (consultCacheTtl 60)) {}
        [agentRequest "Mozilla" 1000, agentRequest "sqlmap" 1001]).served.map Prod.snd =
      [⟨true, 0, false⟩, ⟨true, 0, false⟩] ∧
    (consultQuery (agentRequest "sqlmap" 1001).req).map (consultAnswer quietEngine) =
      some ⟨false, 7, false⟩ := by
  decide +kernel

end LogGuardian
