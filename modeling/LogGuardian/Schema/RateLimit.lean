import LogGuardian.Schema.Request

/-!
# The limit of requests per client

`rate_limit_exceeded` counts in a table of 512 buckets.
-/

namespace LogGuardian

structure LimitedCall where
  request : SchemaRequest
  endpoint : SchemaEndpoint
  srcIp : Bytes
  isIp : request.srcIp = some srcIp
  limited : endpoint.rateLimitRpm ≠ 0

namespace LimitedCall

variable (call : LimitedCall)

def client : Bytes × Bytes × Bytes := (call.srcIp, call.request.method, call.endpoint.path)

def rateKey : Bytes :=
  copyInto 96 (call.srcIp ++ ascii "|" ++ call.request.method ++ ascii "|" ++ call.endpoint.path)

def bucket : ℕ := tableHash call.rateKey % 512

end LimitedCall

def rateRun (world : SchemaWorld) (calls : List LimitedCall) : SchemaWorld :=
  calls.foldl (fun world call => (rateLimitExceeded world call.request call.endpoint).2) world

def sameMinute (calls : List LimitedCall) (call : LimitedCall) : ℕ :=
  calls.countP fun earlier =>
    earlier.client = call.client ∧ earlier.request.now = call.request.now

/-- Histories in order of time in which no two clients share a bucket. -/
structure ApartCalls (calls : List LimitedCall) : Prop where
  apart : ∀ first ∈ calls, ∀ second ∈ calls, first.bucket = second.bucket →
    first.client = second.client
  ordered : calls.Pairwise fun earlier later => earlier.request.now ≤ later.request.now
  few : calls.length < 2 ^ 32

/-- The bucket is unused, or holds the requests of its client in their last minute. -/
def HoldsCount (calls : List LimitedCall) (index : ℕ) (bucket : RateBucket) : Prop :=
  ((∀ call ∈ calls, call.bucket ≠ index) ∧ bucket = ⟨[], 0, 0⟩) ∨
    ∃ last ∈ calls, last.bucket = index ∧
      bucket = ⟨last.rateKey, last.request.now, sameMinute calls last⟩ ∧
      ∀ call ∈ calls, call.bucket = index → call.request.now ≤ last.request.now

theorem rateKey_ne_nil (call : LimitedCall) : call.rateKey ≠ [] := by
  rw [LimitedCall.rateKey, copyInto]
  cases call.srcIp <;> simp [ascii]

theorem bucket_congr {first second : LimitedCall} (same : first.client = second.client) :
    first.rateKey = second.rateKey ∧ first.bucket = second.bucket := by
  simp only [LimitedCall.client, Prod.mk.injEq] at same
  simp [LimitedCall.bucket, LimitedCall.rateKey, same]

section Step

variable {calls : List LimitedCall} {call : LimitedCall} {bucket : RateBucket} {index : ℕ}

theorem sameMinute_concat (other : LimitedCall) : sameMinute (calls ++ [call]) other =
    sameMinute calls other +
      if call.client = other.client ∧ call.request.now = other.request.now then 1 else 0 := by
  simp [sameMinute]

theorem slot_eq (apart : ApartCalls (calls ++ [call])) (holds : HoldsCount calls call.bucket bucket) :
    let slot : RateBucket := if bucket.key = call.rateKey then bucket else ⟨call.rateKey, 0, 0⟩
    (if slot.windowMin = call.request.now then slot
      else { slot with windowMin := call.request.now, count := 0 }) =
      ⟨call.rateKey, call.request.now, sameMinute calls call⟩ := by
  have none (later : ∀ earlier ∈ calls, earlier.bucket = call.bucket →
      earlier.request.now ≠ call.request.now) : sameMinute calls call = 0 := by
    rw [sameMinute, List.countP_eq_zero]
    intro earlier mem same
    rw [decide_eq_true_eq] at same
    exact later earlier mem (bucket_congr same.1).2 same.2
  rcases holds with ⟨unused, rfl⟩ | ⟨last, mem, shared, rfl, latest⟩
  · rw [none fun earlier mem same => absurd same (unused earlier mem)]
    simp only [(rateKey_ne_nil call).symm, if_false]
    split_ifs with zero
    · rw [zero]
    · rfl
  · have client := apart.apart last (by simp [mem]) call (by simp) shared
    simp only [(bucket_congr client).1, if_true]
    split_ifs with minute
    · simp [sameMinute, client, minute]
    · have ordered := (List.pairwise_append.mp apart.ordered).2.2 last mem call (by simp)
      rw [none]
      intro earlier mem shared same
      have early := latest earlier mem shared
      omega

theorem holdsCount_concat_of_ne (other : call.bucket ≠ index) (holds : HoldsCount calls index bucket) :
    HoldsCount (calls ++ [call]) index bucket := by
  rcases holds with ⟨unused, rfl⟩ | ⟨last, mem, shared, rfl, latest⟩
  · refine .inl ⟨?_, rfl⟩
    simpa [or_imp, forall_and] using ⟨unused, other⟩
  · have foreign : call.client ≠ last.client :=
      fun same => other ((bucket_congr same).2.trans shared)
    refine .inr ⟨last, by simp [mem], shared, ?_, ?_⟩
    · rw [sameMinute_concat, if_neg fun same => foreign same.1, Nat.add_zero]
    · simpa [or_imp, forall_and, other] using latest

theorem rateLimitExceeded_eq {world : SchemaWorld} (apart : ApartCalls (calls ++ [call]))
    (holds : HoldsCount calls call.bucket (world.rateBuckets call.bucket)) :
    rateLimitExceeded world call.request call.endpoint =
      (decide (call.endpoint.rateLimitRpm < sameMinute calls call + 1),
        { world with
          rateBuckets := Function.update world.rateBuckets call.bucket
            ⟨call.rateKey, call.request.now, sameMinute calls call + 1⟩ }) := by
  have few : sameMinute calls call + 1 < 2 ^ 32 := by
    have length := apart.few
    rw [List.length_append] at length
    exact lt_of_le_of_lt (Nat.add_le_add_right List.countP_le_length 1) length
  have slot := slot_eq apart holds
  have isKey : copyInto 96 (call.srcIp ++ ascii "|" ++ call.request.method ++ ascii "|" ++
    call.endpoint.path) = call.rateKey := rfl
  have isBucket : tableHash call.rateKey % 512 = call.bucket := rfl
  simp only [rateLimitExceeded, call.isIp, call.limited, if_false, isKey, isBucket] at slot ⊢
  simp only [slot, Nat.mod_eq_of_lt few]

theorem ApartCalls.of_concat (apart : ApartCalls (calls ++ [call])) : ApartCalls calls where
  apart first mem second memSecond := apart.apart first (by simp [mem]) second (by simp [memSecond])
  ordered := (List.pairwise_append.mp apart.ordered).1
  few := lt_of_le_of_lt (by simp) apart.few

theorem holdsCount_rateRun {world : SchemaWorld}
    (fresh : ∀ index, world.rateBuckets index = ⟨[], 0, 0⟩) (apart : ApartCalls calls) (index : ℕ) :
    HoldsCount calls index ((rateRun world calls).rateBuckets index) := by
  induction calls using List.reverseRecOn generalizing index with
  | nil => exact .inl ⟨by simp, fresh index⟩
  | append_singleton calls call ih =>
    have before := ih apart.of_concat
    rw [rateRun, List.foldl_concat, ← rateRun, rateLimitExceeded_eq apart (before call.bucket)]
    dsimp only
    by_cases same : call.bucket = index
    · subst same
      rw [Function.update_self]
      refine .inr ⟨call, by simp, rfl, by rw [sameMinute_concat, if_pos ⟨rfl, rfl⟩], ?_⟩
      intro earlier mem shared
      rcases List.mem_append.mp mem with mem | isCall
      · exact (List.pairwise_append.mp apart.ordered).2.2 earlier mem call (by simp)
      · rw [List.mem_singleton.mp isCall]
    · rw [Function.update_of_ne (Ne.symm same)]
      exact holdsCount_concat_of_ne same (before index)

end Step

def limitedEndpoint : SchemaEndpoint := ⟨ascii "/api", ascii "GET", [], [], 1, true, by decide⟩

def getCall (srcIp : Bytes) : LimitedCall :=
  ⟨⟨ascii "GET", ascii "/api", [], some srcIp, none, 5⟩, limitedEndpoint, srcIp, rfl, by decide⟩

def freshWorld : SchemaWorld := ⟨none, false, fun _ => ⟨[], 0, 0⟩, fun _ => ⟨[], [], 0, 0⟩, ⟨0, 0, 0, 0, 0⟩⟩

end LogGuardian
