import LogGuardian.Lib.LinearProbe
import LogGuardian.Lib.Machine
import LogGuardian.Parser.Entry

/-!
# The IP map

`ip_map.c`: a table of `MAP_CAPACITY` records with open addressing.
-/

namespace LogGuardian

open List

abbrev mapCapacity : ℕ := 65536

instance : NeZero mapCapacity := ⟨by decide⟩

def maxProbeLen : ℕ := 200

def windowSlots : ℕ := 128

abbrev Slot := Fin mapCapacity

structure SlidingWindow where
  times : List ℤ := List.replicate windowSlots 0
  head : ℕ := 0
  count : ℕ := 0
  deriving DecidableEq, Repr

structure IpCounters where
  totalRequests : ℤ := 0
  error4xx : ℤ := 0
  error5xx : ℤ := 0
  sqliHits : ℤ := 0
  respSlow : ℤ := 0
  lruSeq : ℕ := 0
  endpointHits : List ℕ := List.replicate 8 0
  deriving DecidableEq, Repr

inductive SlotState where
  | empty
  | ready
  deriving DecidableEq, Repr

structure IpRecord where
  ip : Bytes := []
  state : SlotState := .empty
  version : ℕ := 0
  threatStage : ℕ := 0
  banned : Bool := false
  banUntilTs : ℤ := 0
  lastAlertTs : ℤ := 0
  firstSeen : ℤ := 0
  lastSeen : ℤ := 0
  window : SlidingWindow := {}
  cnt : IpCounters := {}
  deriving DecidableEq, Repr

/-- `IpMap` with the flag `g_janitor_evict_needed`. -/
structure IpMap where
  slots : Slot → IpRecord
  size : ℕ
  janitorEvictNeeded : Bool

def ipmapInit : IpMap := ⟨fun _ => {}, 0, false⟩

def fnv1a (data : Bytes) : UInt64 :=
  data.foldl (fun hash byte => (hash ^^^ byte.toUInt64) * 1099511628211) 14695981039346656037

def homeSlot (ip : Bytes) : Slot := Fin.ofNat mapCapacity (fnv1a ip).toNat

namespace IpMap

def keys (map : IpMap) (slot : Slot) : Option Bytes :=
  if (map.slots slot).state = .ready then some (map.slots slot).ip else none

def setRecord (map : IpMap) (slot : Slot) (record : IpRecord) : IpMap :=
  { map with slots := Function.update map.slots slot record }

end IpMap

/-- The variables `min_lru` and `oldest`. -/
structure OldestScan where
  minLru : ℕ
  oldest : Option Slot

def oldestStep (map : IpMap) (scan : OldestScan) (slot : Slot) : OldestScan :=
  let record := map.slots slot
  if record.state = .ready ∧ record.threatStage < 2 ∧ record.cnt.lruSeq < scan.minLru then
    ⟨record.cnt.lruSeq, some slot⟩
  else scan

def probeWindow (ip : Bytes) : List Slot :=
  (List.range maxProbeLen).map (LinearProbe.slotAt homeSlot ip)

/-- `oldest` after the search: the record the forced overwrite takes. -/
def forcedVictim (map : IpMap) (ip : Bytes) : Option Slot :=
  ((probeWindow ip).foldl (oldestStep map) ⟨2 ^ 64 - 1, none⟩).oldest

/-- What the forced overwrite stores. -/
def overwriteRecord (record : IpRecord) (ip : Bytes) : IpRecord :=
  { record with
    version := (record.version + 1) % 2 ^ 32
    ip := ip
    cnt := {}
    firstSeen := 0
    lastSeen := 0
    threatStage := 0
    window := { record.window with head := 0, count := 0 }
    state := .ready }

/-- `ipmap_get_or_create`: the slot of the returned record (`none` for `NULL`) and the map. -/
def ipmapGetOrCreate (map : IpMap) (ip : Bytes) : Option Slot × IpMap :=
  if ip = [] ∨ ipStrLen ≤ ip.length then (none, map)
  else
    match LinearProbe.probe homeSlot maxProbeLen map.keys ip with
    | some slot =>
      if (map.slots slot).state = .ready then (some slot, map)
      else
        (some slot,
          { map.setRecord slot { map.slots slot with ip := ip, state := .ready } with
            size := map.size + 1 })
    | none =>
      match forcedVictim map ip with
      | some slot => (some slot, map.setRecord slot (overwriteRecord (map.slots slot) ip))
      | none => (none, { map with janitorEvictNeeded := true })

def windowPush (window : SlidingWindow) (ts : ℤ) : SlidingWindow where
  times := window.times.set (window.head % windowSlots) ts
  head := (window.head + 1) % 2 ^ 32
  count := if window.count < windowSlots then window.count + 1 else window.count

/-- `atomic_fetch_add` of one on a `long`. -/
def incrLong (value : ℤ) : ℤ := Int.bmod (value + 1) (2 ^ 64)

/-- `ipmap_update` on the record it is given. -/
def ipmapUpdate (record : IpRecord) (entry : LogEntry) : IpRecord :=
  { record with
    cnt := { record.cnt with
      totalRequests := incrLong record.cnt.totalRequests
      lruSeq := (record.cnt.lruSeq + 1) % 2 ^ 64
      error4xx :=
        if 400 ≤ entry.status ∧ entry.status < 500 then incrLong record.cnt.error4xx
        else record.cnt.error4xx
      error5xx := if 500 ≤ entry.status then incrLong record.cnt.error5xx else record.cnt.error5xx }
    firstSeen := if record.firstSeen = 0 then entry.ts else record.firstSeen
    lastSeen := entry.ts
    window := windowPush record.window entry.ts }

def evictable (now : ℤ) (record : IpRecord) : Bool :=
  record.state = .ready && record.threatStage < 2 && !record.banned && 300 ≤ now - record.lastSeen

/-- `qsort` with `cmp_evict_candidate`: some order by `lru_seq`, ties in any order. -/
structure LruSort (map : IpMap) where
  sort : List Slot → List Slot
  perm : ∀ candidates, (sort candidates).Perm candidates
  sorted : ∀ candidates, (sort candidates).Pairwise fun first second =>
    (map.slots first).cnt.lruSeq ≤ (map.slots second).cnt.lruSeq

/-- The comparison of `cmp_evict_candidate`. -/
def lruLe (map : IpMap) (first second : Slot) : Bool :=
  (map.slots first).cnt.lruSeq ≤ (map.slots second).cnt.lruSeq

/-- `qsort` by a stable merge sort. -/
def lruMergeSort (map : IpMap) : LruSort map where
  sort candidates := candidates.mergeSort (lruLe map)
  perm candidates := List.mergeSort_perm candidates _
  sorted candidates := by
    have sorted : (candidates.mergeSort (lruLe map)).Pairwise (lruLe map · ·) :=
      List.pairwise_mergeSort (fun _ _ _ => by simpa [lruLe] using le_trans)
        (fun _ _ => by simpa [lruLe] using le_total _ _) candidates
    simpa [lruLe] using sorted

def evictCandidates (map : IpMap) (now : ℤ) : List Slot :=
  (List.finRange mapCapacity).filter fun slot => evictable now (map.slots slot)

def evictPicks (map : IpMap) (qsort : LruSort map) (evictCount : ℕ) (now : ℤ) : List Slot :=
  (qsort.sort (evictCandidates map now)).take evictCount

def evictedRecord (record : IpRecord) : IpRecord := { version := (record.version + 1) % 2 ^ 32 }

def evictStep (map : IpMap) (slot : Slot) : IpMap :=
  let record := map.slots slot
  if record.state ≠ .ready ∨ 2 ≤ record.threatStage ∨ record.banned then map
  else { map.setRecord slot (evictedRecord record) with size := map.size - 1 }

def ipmapEvictLru (map : IpMap) (qsort : LruSort map) (evictCount : ℕ) (now : ℤ) : IpMap :=
  if evictCount = 0 ∨ map.size = 0 then map
  else (evictPicks map qsort evictCount now).foldl evictStep map

/-- One record of `ipmap_expire_bans`; `lifted` says that the callback returned 0. -/
def expireRecord (now : ℤ) (lifted : Bool) (record : IpRecord) : IpRecord :=
  if record.state = .ready ∧ record.banned ∧ 0 < record.banUntilTs ∧ record.banUntilTs ≤ now ∧
      lifted then
    { record with banned := false, banUntilTs := 0 }
  else record

/-- `ipmap_expire_bans`, given the outcome of the callback at each slot. -/
def ipmapExpireBans (map : IpMap) (now : ℤ) (lifted : Slot → Bool) : IpMap :=
  { map with slots := fun slot => expireRecord now (lifted slot) (map.slots slot) }

structure RecordStores where
  threatStage : ℕ
  banned : Bool
  banUntilTs : ℤ
  lastAlertTs : ℤ
  sqliHits : ℤ
  respSlow : ℤ
  endpointHits : List ℕ

def storeRecord (record : IpRecord) (stores : RecordStores) : IpRecord :=
  { record with
    threatStage := stores.threatStage
    banned := stores.banned
    banUntilTs := stores.banUntilTs
    lastAlertTs := stores.lastAlertTs
    cnt := { record.cnt with
      sqliHits := stores.sqliHits
      respSlow := stores.respSlow
      endpointHits := stores.endpointHits } }

inductive MapEvent where
  | getOrCreate (ip : Bytes)
  | update (slot : Slot) (entry : LogEntry)
  | store (slot : Slot) (stores : RecordStores)
  | evictLru (qsort : ∀ map, LruSort map) (evictCount : ℕ) (now : ℤ)
  | expireBans (now : ℤ) (lifted : Slot → Bool)

def IpMap.modifyReady (map : IpMap) (slot : Slot) (change : IpRecord → IpRecord) : IpMap :=
  if (map.slots slot).state = .ready then map.setRecord slot (change (map.slots slot)) else map

def mapStep (map : IpMap) : MapEvent → IpMap
  | .getOrCreate ip => (ipmapGetOrCreate map ip).2
  | .update slot entry => map.modifyReady slot (ipmapUpdate · entry)
  | .store slot stores => map.modifyReady slot (storeRecord · stores)
  | .evictLru qsort evictCount now => ipmapEvictLru map (qsort map) evictCount now
  | .expireBans now lifted => ipmapExpireBans map now lifted

def mapRun (map : IpMap) (events : List MapEvent) : IpMap := Machine.run mapStep map events

theorem mapRun_nil (map : IpMap) : mapRun map [] = map := rfl

theorem mapRun_cons (map : IpMap) (event : MapEvent) (rest : List MapEvent) :
    mapRun map (event :: rest) = mapRun (mapStep map event) rest := rfl

theorem mapRun_append (map : IpMap) (first second : List MapEvent) :
    mapRun map (first ++ second) = mapRun (mapRun map first) second :=
  Machine.run_append map first second

@[simp]
theorem setRecord_slots (map : IpMap) (slot : Slot) (record : IpRecord) :
    (map.setRecord slot record).slots = Function.update map.slots slot record := rfl

variable {map : IpMap} {slot : Slot}

theorem keys_eq_some_iff {ip : Bytes} :
    map.keys slot = some ip ↔ (map.slots slot).state = .ready ∧ (map.slots slot).ip = ip := by
  simp [IpMap.keys]

theorem keys_eq_none_iff :
    map.keys slot = none ↔ (map.slots slot).state = .empty := by
  unfold IpMap.keys
  rcases state : (map.slots slot).state <;> simp

theorem keys_setRecord {record : IpRecord} (ready : record.state = .ready) :
    (map.setRecord slot record).keys = Function.update map.keys slot (some record.ip) := by
  funext other
  by_cases same : other = slot
  · subst same
    simp [IpMap.keys, ready]
  · simp [IpMap.keys, Function.update_of_ne same]

theorem keys_modifyReady {change : IpRecord → IpRecord}
    (keepsIp : ∀ record, (change record).ip = record.ip)
    (keepsState : ∀ record, (change record).state = record.state) :
    (map.modifyReady slot change).keys = map.keys := by
  unfold IpMap.modifyReady
  split
  · rename_i ready
    rw [keys_setRecord ((keepsState _).trans ready), keepsIp]
    exact Function.update_eq_self_iff.mpr (keys_eq_some_iff.mpr ⟨ready, rfl⟩).symm
  · rfl

@[simp]
theorem keys_mapStep_update (map : IpMap) (slot : Slot) (entry : LogEntry) :
    (mapStep map (.update slot entry)).keys = map.keys :=
  keys_modifyReady (fun _ => rfl) fun _ => rfl

@[simp]
theorem keys_mapStep_store (map : IpMap) (slot : Slot) (stores : RecordStores) :
    (mapStep map (.store slot stores)).keys = map.keys :=
  keys_modifyReady (fun _ => rfl) fun _ => rfl

@[simp]
theorem keys_mapStep_expireBans (map : IpMap) (now : ℤ) (lifted : Slot → Bool) :
    (mapStep map (.expireBans now lifted)).keys = map.keys := by
  funext slot
  simp only [IpMap.keys, mapStep, ipmapExpireBans, expireRecord]
  split_ifs <;> simp_all

/-- The records that the eviction loop does not skip. -/
def Unprotected (record : IpRecord) : Prop :=
  record.state = .ready ∧ record.threatStage < 2 ∧ record.banned = false

theorem slots_foldl_evictStep {picks : List Slot} (distinct : picks.Nodup)
    (unprotected : ∀ slot ∈ picks, Unprotected (map.slots slot)) :
    (picks.foldl evictStep map).slots =
      fun slot => if slot ∈ picks then evictedRecord (map.slots slot) else map.slots slot := by
  induction picks generalizing map with
  | nil => simp
  | cons first rest ih =>
    rcases List.nodup_cons.mp distinct with ⟨notAgain, restDistinct⟩
    rcases unprotected first mem_cons_self with ⟨ready, calm, free⟩
    have evicts : evictStep map first =
        { map.setRecord first (evictedRecord (map.slots first)) with size := map.size - 1 } := by
      unfold evictStep
      simp [ready, free]
      omega
    rw [foldl_cons, evicts, ih restDistinct]
    · funext slot
      by_cases same : slot = first
      · subst same
        simp [notAgain]
      · simp [same]
    · intro slot mem
      have other : slot ≠ first := fun same => notAgain (same ▸ mem)
      simpa [Function.update_of_ne other] using unprotected slot (mem_cons_of_mem _ mem)

theorem mem_evictPicks {qsort : LruSort map} {evictCount : ℕ} {now : ℤ}
    (picked : slot ∈ evictPicks map qsort evictCount now) :
    evictable now (map.slots slot) = true := by
  have candidate := (qsort.perm _).mem_iff.mp (mem_of_mem_take picked)
  simpa [evictCandidates] using candidate

theorem nodup_evictPicks (map : IpMap) (qsort : LruSort map) (evictCount : ℕ) (now : ℤ) :
    (evictPicks map qsort evictCount now).Nodup := by
  have candidates : (evictCandidates map now).Nodup := (nodup_finRange _).filter _
  exact ((qsort.perm _).nodup_iff.mpr candidates).sublist (take_sublist _ _)

theorem ipmapEvictLru_of_size_eq_zero (qsort : LruSort map) (evictCount : ℕ) (now : ℤ)
    (vacant : map.size = 0) : ipmapEvictLru map qsort evictCount now = map := by
  simp [ipmapEvictLru, vacant]

theorem slots_ipmapEvictLru (qsort : LruSort map) (evictCount : ℕ) (now : ℤ) (stored : map.size ≠ 0) :
    (ipmapEvictLru map qsort evictCount now).slots = fun slot =>
      if slot ∈ evictPicks map qsort evictCount now then evictedRecord (map.slots slot)
      else map.slots slot := by
  rcases Nat.eq_zero_or_pos evictCount with rfl | positive
  · simp [ipmapEvictLru, evictPicks]
  · unfold ipmapEvictLru
    rw [if_neg (by omega)]
    refine slots_foldl_evictStep (nodup_evictPicks map qsort evictCount now) ?_
    intro slot picked
    have candidate := mem_evictPicks picked
    simp only [evictable, Bool.and_eq_true, decide_eq_true_eq, Bool.not_eq_true'] at candidate
    exact ⟨candidate.1.1.1, candidate.1.1.2, candidate.1.2⟩

end LogGuardian
