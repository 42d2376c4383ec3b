import LogGuardian.Lib.TokenBucket

/-!
# The token bucket of the XDP filter
-/

namespace LogGuardian

def tbCapacity : UInt64 := 200

def tbRatePerNs : UInt64 := 1

def tbDrain : UInt64 := 4

structure TokenBucketVal where
  tokens : UInt64
  lastRefill : UInt64
  deriving DecidableEq, Repr

def refill (bucket : TokenBucketVal) (now : UInt64) : UInt64 :=
  let tokens := bucket.tokens + (now - bucket.lastRefill) * tbRatePerNs
  if tbCapacity < tokens then tbCapacity else tokens

def tokenBucket (entry : Option TokenBucketVal) (now : UInt64) : Bool × TokenBucketVal :=
  match entry with
  | some bucket =>
    if refill bucket now < tbDrain then (false, ⟨refill bucket now, now⟩)
    else (true, ⟨refill bucket now - tbDrain, now⟩)
  | none => (true, ⟨tbCapacity - tbDrain, now⟩)

def bucketRun : Option TokenBucketVal → List UInt64 → List TokenBucket.Visit
  | _, [] => []
  | entry, now :: rest =>
    let (passes, bucket) := tokenBucket entry now
    ⟨now.toNat, passes, bucket.tokens.toNat⟩ :: bucketRun (some bucket) rest

theorem toNat_refill_le {bucket : TokenBucketVal} {now : UInt64}
    (later : bucket.lastRefill ≤ now) :
    (refill bucket now).toNat ≤
      min 200 (bucket.tokens.toNat + (now.toNat - bucket.lastRefill.toNat)) := by
  have elapsed : (now - bucket.lastRefill).toNat = now.toNat - bucket.lastRefill.toNat :=
    UInt64.toNat_sub_of_le _ _ later
  have sum : (bucket.tokens + (now - bucket.lastRefill) * tbRatePerNs).toNat ≤
      bucket.tokens.toNat + (now.toNat - bucket.lastRefill.toNat) := by
    rw [tbRatePerNs, UInt64.mul_one, UInt64.toNat_add, elapsed]
    exact Nat.mod_le _ _
  have capacity : tbCapacity.toNat = 200 := rfl
  rw [refill]
  split
  next tooMany =>
    rw [UInt64.lt_iff_toNat_lt] at tooMany
    omega
  next fits =>
    rw [UInt64.lt_iff_toNat_lt] at fits
    omega

theorem tokenBucket_pays {bucket : TokenBucketVal} {now : UInt64}
    (later : bucket.lastRefill ≤ now) :
    (tokenBucket (some bucket) now).2.lastRefill = now ∧
      (tokenBucket (some bucket) now).2.tokens.toNat +
          (if (tokenBucket (some bucket) now).1 then 4 else 0) ≤
        min 200 (bucket.tokens.toNat + (now.toNat - bucket.lastRefill.toNat)) := by
  have bound := toNat_refill_le later
  have drain : tbDrain.toNat = 4 := rfl
  rw [tokenBucket]
  split
  next empty => exact ⟨rfl, bound⟩
  next enough =>
    rw [UInt64.not_lt] at enough
    have left : (refill bucket now - tbDrain).toNat = (refill bucket now).toNat - 4 :=
      UInt64.toNat_sub_of_le _ _ enough
    rw [UInt64.le_iff_toNat_le] at enough
    refine ⟨rfl, ?_⟩
    rw [left, if_pos rfl]
    omega

theorem limited_bucketRun {bucket : TokenBucketVal} {times : List UInt64}
    (ordered : (bucket.lastRefill :: times).Pairwise (· ≤ ·)) :
    TokenBucket.Limited 200 4 bucket.tokens.toNat bucket.lastRefill.toNat
      (bucketRun (some bucket) times) := by
  induction times generalizing bucket with
  | nil => trivial
  | cons now rest ih =>
    rw [List.pairwise_cons] at ordered
    have later := ordered.1 now List.mem_cons_self
    rcases tokenBucket_pays later with ⟨last, pays⟩
    refine ⟨UInt64.le_iff_toNat_le.mp later, pays, ?_⟩
    have rest := @ih (tokenBucket (some bucket) now).2 (by rw [last]; exact ordered.2)
    rw [last] at rest
    exact rest

theorem limited_bucketRun_none {times : List UInt64} (ordered : times.Pairwise (· ≤ ·)) :
    TokenBucket.Limited 200 4 200 0 (bucketRun none times) := by
  cases times with
  | nil => trivial
  | cons now rest =>
    refine ⟨Nat.zero_le _, ?_, limited_bucketRun ordered⟩
    exact le_min le_rfl (Nat.le_add_right _ _)

theorem left_le_of_limited {capacity cost tokens last : ℕ} {visits : List TokenBucket.Visit}
    (limited : TokenBucket.Limited capacity cost tokens last visits) :
    ∀ visit ∈ visits, visit.left + visit.paid cost ≤ capacity := by
  induction visits generalizing tokens last with
  | nil => simp
  | cons visit rest ih =>
    rw [List.forall_mem_cons]
    exact ⟨le_trans limited.2.1 (min_le_left _ _), ih limited.2.2⟩

/-- On one CPU, packets in order of time leave at most 200 tokens, pass at most as the interval
allows, and the first one passes. -/
theorem tokenBucket_bound {times : List UInt64} (ordered : times.Pairwise (· ≤ ·)) :
    (∀ visit ∈ bucketRun none times, visit.left + visit.paid 4 ≤ 200) ∧
      (∀ start length, TokenBucket.admittedIn start length (bucketRun none times) ≤
        (200 + length) / 4 + 1) ∧
      ∀ visit ∈ (bucketRun none times).head?, visit.admitted = true := by
  have limited := limited_bucketRun_none ordered
  refine ⟨left_le_of_limited limited, ?_, ?_⟩
  · intro start length
    have bound := @TokenBucket.cost_admittedIn_le 200 4 start length _ _ _ limited
    omega
  · rcases times with _ | ⟨now, rest⟩
    · rintro visit ⟨⟩
    · rintro visit ⟨⟩
      rfl

/-- Three packets, the last one after nearly the whole range of the clock. -/
theorem tokenBucket_bound_long_gap :
    [0, 0, 2 ^ 64 - 1].Pairwise (· ≤ · : UInt64 → UInt64 → Prop) ∧
      (∀ visit ∈ bucketRun none [0, 0, 2 ^ 64 - 1], visit.left + visit.paid 4 ≤ 200) ∧
      (∀ start length, TokenBucket.admittedIn start length (bucketRun none [0, 0, 2 ^ 64 - 1]) ≤
        (200 + length) / 4 + 1) ∧
      ∀ visit ∈ (bucketRun none [0, 0, 2 ^ 64 - 1]).head?, visit.admitted = true := by
  have ordered : [0, 0, 2 ^ 64 - 1].Pairwise (· ≤ · : UInt64 → UInt64 → Prop) := by
    decide +kernel
  exact ⟨ordered, tokenBucket_bound ordered⟩

end LogGuardian
