import LogGuardian.IpMap.Basic

/-!
# Expiry of bans

`ipmap_expire_bans` with the calls it makes.
-/

namespace LogGuardian

open List

universe u

variable {Context : Type u}

structure ExpireCall where
  slot : Slot
  ip : Bytes
  result : ℤ
  deriving DecidableEq, Repr

structure ExpireScan (Context : Type u) where
  slots : Slot → IpRecord
  context : Context
  n : ℕ
  calls : List ExpireCall

def banExpired (now : ℤ) (record : IpRecord) : Bool :=
  record.state = .ready && record.banned && 0 < record.banUntilTs && record.banUntilTs ≤ now

def liftBan (record : IpRecord) : IpRecord := { record with banned := false, banUntilTs := 0 }

/-- One turn of the loop of `ipmap_expire_bans`. -/
def expireStep (cb : Context → Bytes → Context × ℤ) (now : ℤ) (scan : ExpireScan Context)
    (slot : Slot) : ExpireScan Context :=
  let record := scan.slots slot
  if record.state ≠ .ready then scan
  else if record.banned = false then scan
  else if record.banUntilTs ≤ 0 ∨ now < record.banUntilTs then scan
  else
    let (context, result) := cb scan.context record.ip
    let called := { scan with context := context, calls := scan.calls ++ [⟨slot, record.ip, result⟩] }
    if result = 0 then
      { called with slots := Function.update scan.slots slot (liftBan record), n := scan.n + 1 }
    else called

/-- `ipmap_expire_bans` with a table and a callback. -/
def ipmapExpireBansScan (cb : Context → Bytes → Context × ℤ) (context : Context) (map : IpMap)
    (now : ℤ) : ExpireScan Context :=
  (List.finRange mapCapacity).foldl (expireStep cb now) ⟨map.slots, context, 0, []⟩

def callTrace (cb : Context → Bytes → Context × ℤ) (records : Slot → IpRecord) :
    Context → List Slot → List ExpireCall
  | _, [] => []
  | context, slot :: rest =>
    ⟨slot, (records slot).ip, (cb context (records slot).ip).2⟩ ::
      callTrace cb records (cb context (records slot).ip).1 rest

/-- What is behind `ctx` after these calls. -/
def callContext (cb : Context → Bytes → Context × ℤ) (records : Slot → IpRecord) (context : Context)
    (slots : List Slot) : Context :=
  slots.foldl (fun context slot => (cb context (records slot).ip).1) context

def liftedSlots (calls : List ExpireCall) : List Slot :=
  (calls.filter fun call => call.result = 0).map ExpireCall.slot

theorem map_slot_callTrace (cb : Context → Bytes → Context × ℤ) (records : Slot → IpRecord)
    (context : Context) (slots : List Slot) :
    (callTrace cb records context slots).map ExpireCall.slot = slots := by
  induction slots generalizing context with
  | nil => rfl
  | cons slot rest ih => rw [callTrace, map_cons, ih]

theorem callTrace_concat (cb : Context → Bytes → Context × ℤ) (records : Slot → IpRecord)
    (context : Context) (slots : List Slot) (slot : Slot) :
    callTrace cb records context (slots ++ [slot]) = callTrace cb records context slots ++
      [⟨slot, (records slot).ip,
        (cb (callContext cb records context slots) (records slot).ip).2⟩] := by
  induction slots generalizing context with
  | nil => rfl
  | cons first rest ih =>
    rw [cons_append, callTrace, callTrace, ih]
    rfl

theorem liftedSlots_concat (calls : List ExpireCall) (call : ExpireCall) :
    liftedSlots (calls ++ [call]) =
      liftedSlots calls ++ if call.result = 0 then [call.slot] else [] := by
  by_cases lifted : call.result = 0
  · simp [liftedSlots, lifted]
  · simp [liftedSlots, lifted]

theorem liftedSlots_subset (calls : List ExpireCall) :
    liftedSlots calls ⊆ calls.map ExpireCall.slot := by
  apply map_subset
  exact filter_subset_self _

theorem expireStep_of_not_expired (cb : Context → Bytes → Context × ℤ) {now : ℤ}
    {scan : ExpireScan Context} {slot : Slot} (kept : banExpired now (scan.slots slot) = false) :
    expireStep cb now scan slot = scan := by
  simp only [banExpired, Bool.and_eq_false_iff] at kept
  simp only [expireStep]
  split_ifs <;> simp_all

theorem expireStep_of_expired (cb : Context → Bytes → Context × ℤ) {now : ℤ}
    {scan : ExpireScan Context} {slot : Slot} (expired : banExpired now (scan.slots slot) = true) :
    expireStep cb now scan slot =
      let answer := cb scan.context (scan.slots slot).ip
      { slots := if answer.2 = 0 then Function.update scan.slots slot (liftBan (scan.slots slot))
          else scan.slots
        context := answer.1
        n := if answer.2 = 0 then scan.n + 1 else scan.n
        calls := scan.calls ++ [⟨slot, (scan.slots slot).ip, answer.2⟩] } := by
  simp only [banExpired, Bool.and_eq_true, decide_eq_true_eq] at expired
  simp only [expireStep]
  rw [if_neg (by simp [expired]), if_neg (by simp [expired]), if_neg (by omega)]
  split_ifs <;> rfl

section Scan

variable (cb : Context → Bytes → Context × ℤ) (context : Context) (map : IpMap) (now : ℤ)

/-- The state of the scan behind the slots it has seen. -/
structure Scanned (seen : List Slot) (scan : ExpireScan Context) : Prop where
  calls : scan.calls = callTrace cb map.slots context
    (seen.filter fun slot => banExpired now (map.slots slot))
  context : scan.context = callContext cb map.slots context
    (seen.filter fun slot => banExpired now (map.slots slot))
  n : scan.n = (liftedSlots scan.calls).length
  slots : scan.slots = fun slot =>
    if slot ∈ liftedSlots scan.calls then liftBan (map.slots slot) else map.slots slot

variable {cb context map now}

variable {seen : List Slot} {scan : ExpireScan Context}

theorem Scanned.liftedSlots_subset (scanned : Scanned cb context map now seen scan) :
    liftedSlots scan.calls ⊆ seen := by
  intro slot lifted
  have mem := LogGuardian.liftedSlots_subset scan.calls lifted
  rw [scanned.calls, map_slot_callTrace] at mem
  exact mem_of_mem_filter mem

theorem Scanned.step (scanned : Scanned cb context map now seen scan) {slot : Slot}
    (fresh : slot ∉ seen) :
    Scanned cb context map now (seen ++ [slot]) (expireStep cb now scan slot) := by
  have notLifted : slot ∉ liftedSlots scan.calls := fun lifted =>
    fresh (scanned.liftedSlots_subset lifted)
  have record : scan.slots slot = map.slots slot := by
    rw [scanned.slots]
    exact if_neg notLifted
  by_cases expired : banExpired now (map.slots slot) = true
  · have filtered : (seen ++ [slot]).filter (fun slot => banExpired now (map.slots slot)) =
        (seen.filter fun slot => banExpired now (map.slots slot)) ++ [slot] := by
      simp [expired]
    have stepped := expireStep_of_expired cb (record ▸ expired)
    have lifted := liftedSlots_concat scan.calls
      ⟨slot, (map.slots slot).ip, (cb scan.context (map.slots slot).ip).2⟩
    rw [record] at stepped
    dsimp only at stepped lifted
    constructor
    · rw [stepped, filtered, callTrace_concat, ← scanned.calls, ← scanned.context]
    · rw [stepped, filtered, scanned.context, callContext, callContext, foldl_append]
      rfl
    · rw [stepped]
      rw [lifted, length_append, ← scanned.n]
      split <;> rfl
    · rw [stepped]
      rw [lifted]
      funext other
      split
      next zero =>
        rw [scanned.slots]
        by_cases same : other = slot
        · subst same
          simp
        · simp [same]
      next nonzero =>
        rw [scanned.slots]
        simp
  · rw [Bool.not_eq_true] at expired
    have filtered : (seen ++ [slot]).filter (fun slot => banExpired now (map.slots slot)) =
        seen.filter fun slot => banExpired now (map.slots slot) := by
      simp [expired]
    rw [expireStep_of_not_expired cb (record ▸ expired)]
    exact ⟨filtered ▸ scanned.calls, filtered ▸ scanned.context, scanned.n, scanned.slots⟩

theorem Scanned.foldl {rest : List Slot} (scanned : Scanned cb context map now seen scan)
    (distinct : (seen ++ rest).Nodup) :
    Scanned cb context map now (seen ++ rest) (rest.foldl (expireStep cb now) scan) := by
  induction rest generalizing seen scan with
  | nil => simpa using scanned
  | cons slot rest ih =>
    have fresh : slot ∉ seen := fun mem =>
      (List.nodup_append.mp distinct).2.2 slot mem slot mem_cons_self rfl
    rw [append_cons] at distinct ⊢
    exact ih (scanned.step fresh) distinct

theorem scanned_ipmapExpireBansScan :
    Scanned cb context map now (List.finRange mapCapacity)
      (ipmapExpireBansScan cb context map now) := by
  have start : Scanned cb context map now [] ⟨map.slots, context, 0, []⟩ :=
    ⟨rfl, rfl, rfl, by simp [liftedSlots]⟩
  have distinct : ([] ++ finRange mapCapacity).Nodup := by
    rw [nil_append]
    exact nodup_finRange _
  have all := start.foldl distinct
  rw [nil_append] at all
  exact all

end Scan

/-- The callback is called once for each ban that has run out and for nothing else; what it lifted
is cleared, nothing else changes, and its number is returned. -/
theorem ipmapExpireBansScan_exact (cb : Context → Bytes → Context × ℤ) (context : Context)
    (map : IpMap) (now : ℤ) :
    let scan := ipmapExpireBansScan cb context map now
    (∀ slot, (scan.calls.map ExpireCall.slot).count slot =
        if banExpired now (map.slots slot) then 1 else 0) ∧
      scan.calls = callTrace cb map.slots context (scan.calls.map ExpireCall.slot) ∧
      (∀ slot, scan.slots slot =
        if ∃ call ∈ scan.calls, call.slot = slot ∧ call.result = 0 then
          { map.slots slot with banned := false, banUntilTs := 0 }
        else map.slots slot) ∧
      scan.n = scan.calls.countP fun call => call.result = 0 := by
  have scanned := @scanned_ipmapExpireBansScan _ cb context map now
  have slots : (ipmapExpireBansScan cb context map now).calls.map ExpireCall.slot =
      (finRange mapCapacity).filter fun slot => banExpired now (map.slots slot) := by
    rw [scanned.calls, map_slot_callTrace]
  refine ⟨?_, ?_, ?_, ?_⟩
  · intro slot
    rw [slots]
    split
    next expired =>
      rw [count_filter (by simpa using expired)]
      exact count_eq_one_of_mem (nodup_finRange _) (mem_finRange slot)
    next kept =>
      rw [count_eq_zero]
      simp [kept]
  · rw [slots]
    exact scanned.calls
  · intro slot
    have lifted : slot ∈ liftedSlots (ipmapExpireBansScan cb context map now).calls ↔
        ∃ call ∈ (ipmapExpireBansScan cb context map now).calls,
          call.slot = slot ∧ call.result = 0 := by
      simp [liftedSlots, and_assoc, and_comm]
    have record := congrFun scanned.slots slot
    simp only [lifted] at record
    exact record
  · rw [scanned.n, liftedSlots, length_map, countP_eq_length_filter]

theorem ipmapExpireBans_eq_scan (cb : Context → Bytes → Context × ℤ) (context : Context)
    (map : IpMap) (now : ℤ) :
    (ipmapExpireBans map now fun slot =>
        slot ∈ liftedSlots (ipmapExpireBansScan cb context map now).calls).slots =
      (ipmapExpireBansScan cb context map now).slots := by
  have scanned := @scanned_ipmapExpireBansScan _ cb context map now
  rw [scanned.slots]
  funext slot
  by_cases lifted : slot ∈ liftedSlots (ipmapExpireBansScan cb context map now).calls
  · have mem := liftedSlots_subset _ lifted
    rw [scanned.calls, map_slot_callTrace, mem_filter] at mem
    have expired := mem.2
    simp only [banExpired, Bool.and_eq_true, decide_eq_true_eq] at expired
    simp [ipmapExpireBans, expireRecord, liftBan, expired]
  · simp [ipmapExpireBans, expireRecord, lifted]

end LogGuardian
