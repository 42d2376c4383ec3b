import LogGuardian.IpMap.Uniqueness
import LogGuardian.Lib.Selection

/-!
# Eviction and recency
-/

namespace LogGuardian

namespace IpMap

def readySlots (map : IpMap) : Finset Slot :=
  Finset.univ.filter fun slot => (map.slots slot).state = .ready

/-- `size` is the number of records. -/
def Counted (map : IpMap) : Prop := map.size = map.readySlots.card

variable {map : IpMap} {slot : Slot} {record : IpRecord} {now : ℤ} {evictCount : ℕ}

theorem mem_readySlots :
    slot ∈ map.readySlots ↔ (map.slots slot).state = .ready := by
  simp [readySlots]

theorem readySlots_congr {before after : IpMap}
    (states : ∀ slot, (after.slots slot).state = (before.slots slot).state) :
    after.readySlots = before.readySlots := by
  ext slot
  rw [mem_readySlots, mem_readySlots, states]

theorem readySlots_setRecord_of_state (state : record.state = (map.slots slot).state) :
    (map.setRecord slot record).readySlots = map.readySlots := by
  apply readySlots_congr
  intro other
  by_cases same : other = slot
  · subst same
    simpa using state
  · simp [same]

theorem readySlots_setRecord_ready (map : IpMap) (slot : Slot) (ready : record.state = .ready) :
    (map.setRecord slot record).readySlots = insert slot map.readySlots := by
  ext other
  rw [Finset.mem_insert, mem_readySlots, mem_readySlots]
  by_cases same : other = slot
  · subst same
    simpa using ready
  · simp [same]

theorem readySlots_setRecord_empty (map : IpMap) (slot : Slot) (empty : record.state = .empty) :
    (map.setRecord slot record).readySlots = map.readySlots.erase slot := by
  ext other
  rw [Finset.mem_erase, mem_readySlots, mem_readySlots]
  by_cases same : other = slot
  · subst same
    simp [empty]
  · simp [same]

theorem counted_ipmapGetOrCreate (counted : map.Counted) (ip : Bytes) :
    (ipmapGetOrCreate map ip).2.Counted := by
  cases getOrCreateOutcome map ip with
  | rejected invalid result => rwa [result]
  | found slot nonempty short stops stored result => rwa [result]
  | created slot nonempty short stops free result =>
    have absent : slot ∉ map.readySlots := by
      rw [mem_readySlots, keys_eq_none_iff.mp free]
      exact SlotState.noConfusion
    have slots : ({ map.setRecord slot { map.slots slot with ip := ip, state := .ready } with
        size := map.size + 1 } : IpMap).readySlots = insert slot map.readySlots :=
      readySlots_setRecord_ready map slot rfl
    rw [result, Counted, slots, Finset.card_insert_of_notMem absent, ← counted]
  | overwritten slot nonempty short full victim result =>
    have ready : (map.slots slot).state = .ready := by
      rcases victim with ⟨_, _, _, overwritable, -⟩
      exact overwritable.1
    rw [result, Counted, readySlots_setRecord_of_state ready.symm]
    exact counted
  | refused full noVictim result =>
    rw [result]
    exact counted

theorem counted_modifyReady (counted : map.Counted) (slot : Slot) {change : IpRecord → IpRecord}
    (state : ∀ record, (change record).state = record.state) :
    (map.modifyReady slot change).Counted := by
  rw [modifyReady]
  split
  · rw [Counted, readySlots_setRecord_of_state (state _)]
    exact counted
  · exact counted

theorem counted_evictStep (counted : map.Counted) (slot : Slot) :
    (evictStep map slot).Counted := by
  simp only [evictStep]
  split
  · exact counted
  next unprotected =>
    rw [not_or, not_not] at unprotected
    have slots : ({ map.setRecord slot (evictedRecord (map.slots slot)) with
        size := map.size - 1 } : IpMap).readySlots = map.readySlots.erase slot :=
      readySlots_setRecord_empty map slot rfl
    rw [Counted, slots, Finset.card_erase_of_mem (mem_readySlots.mpr unprotected.1), ← counted]

theorem counted_ipmapEvictLru (counted : map.Counted) (qsort : LruSort map) (evictCount : ℕ)
    (now : ℤ) : (ipmapEvictLru map qsort evictCount now).Counted := by
  rw [ipmapEvictLru]
  split
  · exact counted
  · exact Machine.run_invariant Counted (fun _ slot before => counted_evictStep before slot) counted _

theorem counted_mapStep (counted : map.Counted) (event : MapEvent) :
    (mapStep map event).Counted := by
  cases event with
  | getOrCreate ip => exact counted_ipmapGetOrCreate counted ip
  | update slot entry => exact counted_modifyReady counted slot fun _ => rfl
  | store slot stores => exact counted_modifyReady counted slot fun _ => rfl
  | evictLru qsort evictCount now => exact counted_ipmapEvictLru counted _ evictCount now
  | expireBans now lifted =>
    have slots : (mapStep map (.expireBans now lifted)).readySlots = map.readySlots := by
      apply readySlots_congr
      intro slot
      simp only [mapStep, ipmapExpireBans, expireRecord]
      split <;> rfl
    rw [Counted, slots]
    exact counted

theorem counted_mapRun (events : List MapEvent) : (mapRun ipmapInit events).Counted := by
  refine Machine.run_invariant Counted (fun _ event before => counted_mapStep before event) ?_ events
  rw [Counted, Eq.comm, ipmapInit]
  simp [readySlots]

/-- No record is evicted while an eligible one is kept that was last seen earlier. -/
def EvictsByRecency (map : IpMap) (evictCount : ℕ) (now : ℤ) : Prop :=
  ∀ (qsort : LruSort map) (evicted kept : Slot),
    (map.slots evicted).state = .ready →
      ((ipmapEvictLru map qsort evictCount now).slots evicted).state = .empty →
      evictable now (map.slots kept) = true →
      ((ipmapEvictLru map qsort evictCount now).slots kept).state = .ready →
      ¬(map.slots kept).lastSeen < (map.slots evicted).lastSeen

/-- The number of candidates with a smaller `lru_seq`. -/
def candidatesBelow (map : IpMap) (now : ℤ) (slot : Slot) : ℕ :=
  (evictCandidates map now).countP fun other =>
    (map.slots other).cnt.lruSeq < (map.slots slot).cnt.lruSeq

/-- The number of candidates with an `lru_seq` up to that of the slot. -/
def candidatesUpTo (map : IpMap) (now : ℤ) (slot : Slot) : ℕ :=
  (evictCandidates map now).countP fun other =>
    (map.slots other).cnt.lruSeq ≤ (map.slots slot).cnt.lruSeq

/-- Where the counters of two candidates disagree with their times, both are beyond the reach of
the eviction or both within it. -/
def SeqAgrees (map : IpMap) (evictCount : ℕ) (now : ℤ) : Prop :=
  ∀ newer older, evictable now (map.slots newer) = true → evictable now (map.slots older) = true →
    (map.slots older).lastSeen < (map.slots newer).lastSeen →
    (map.slots newer).cnt.lruSeq ≤ (map.slots older).cnt.lruSeq →
      evictCount ≤ map.candidatesBelow now newer ∨ map.candidatesUpTo now older ≤ evictCount

theorem mem_evictCandidates :
    slot ∈ evictCandidates map now ↔ evictable now (map.slots slot) = true := by
  simp [evictCandidates]

theorem nodup_evictCandidates (map : IpMap) (now : ℤ) : (evictCandidates map now).Nodup :=
  (List.nodup_finRange _).filter _

theorem size_ne_zero_of_evictable (counted : map.Counted)
    (candidate : evictable now (map.slots slot) = true) : map.size ≠ 0 := by
  simp only [evictable, Bool.and_eq_true, decide_eq_true_eq] at candidate
  rw [counted]
  exact Finset.card_ne_zero_of_mem (mem_readySlots.mpr candidate.1.1.1)

/-- After every run the early exit of `ipmap_evict_lru` skips no candidate, and `size`, the number of
READY slots, goes down by the number of the records that are picked. -/
theorem ipmapEvictLru_mapRun (events : List MapEvent) (qsort : ∀ map, LruSort map) (evictCount : ℕ)
    (now : ℤ) :
    let map := mapRun ipmapInit events
    let picks := evictPicks map (qsort map) evictCount now
    let evicted := ipmapEvictLru map (qsort map) evictCount now
    evicted = picks.foldl evictStep map ∧ map.size = map.readySlots.card ∧
      evicted.readySlots = map.readySlots \ picks.toFinset ∧
      evicted.size + picks.length = map.size := by
  intro map picks evicted
  have counted : map.Counted := counted_mapRun events
  have after : evicted.Counted := counted_ipmapEvictLru counted _ evictCount now
  have distinct : picks.Nodup := nodup_evictPicks map (qsort map) evictCount now
  have unprotected : ∀ slot ∈ picks, Unprotected (map.slots slot) := by
    intro slot picked
    have candidate := mem_evictPicks picked
    simp only [evictable, Bool.and_eq_true, decide_eq_true_eq, Bool.not_eq_true'] at candidate
    exact ⟨candidate.1.1.1, candidate.1.1.2, candidate.1.2⟩
  have plain : evicted = picks.foldl evictStep map := by
    by_cases idle : evictCount = 0 ∨ map.size = 0
    · have none : picks = [] := by
        rw [List.eq_nil_iff_forall_not_mem]
        intro slot picked
        rcases idle with zero | vacant
        · simp [picks, evictPicks, zero] at picked
        · exact size_ne_zero_of_evictable counted (mem_evictPicks picked) vacant
      rw [none]
      exact if_pos idle
    · exact if_neg idle
  have freed : evicted.readySlots = map.readySlots \ picks.toFinset := by
    ext slot
    rw [plain, mem_readySlots, slots_foldl_evictStep distinct unprotected, Finset.mem_sdiff,
      mem_readySlots, List.mem_toFinset]
    by_cases picked : slot ∈ picks
    · simp [picked, evictedRecord]
    · simp [picked]
  refine ⟨plain, counted, freed, ?_⟩
  rw [after, freed, counted, ← List.toFinset_card_of_nodup distinct]
  apply Finset.card_sdiff_add_card_eq_card
  intro slot picked
  exact mem_readySlots.mpr (unprotected slot (List.mem_toFinset.mp picked)).1

theorem state_ipmapEvictLru (qsort : LruSort map) (evictCount : ℕ) (now : ℤ) (stored : map.size ≠ 0)
    (ready : (map.slots slot).state = .ready) :
    ((ipmapEvictLru map qsort evictCount now).slots slot).state =
      if slot ∈ evictPicks map qsort evictCount now then .empty else .ready := by
  rw [slots_ipmapEvictLru qsort evictCount now stored]
  dsimp only
  split
  · rfl
  · exact ready

def lruSortBetween (map : IpMap) (first last : Slot) : LruSort map where
  sort := Selection.sortBy (fun slot => (map.slots slot).cnt.lruSeq)
    fun slot => if slot = first then 0 else if slot = last then 2 else 1
  perm := Selection.sortBy_perm _ _
  sorted := Selection.pairwise_key_sortBy _ _

theorem evictsByRecency_of_seqAgrees (counted : map.Counted) (agrees : map.SeqAgrees evictCount now) :
    map.EvictsByRecency evictCount now := by
  intro qsort evicted kept ready gone candidate stays older
  have stored := size_ne_zero_of_evictable counted candidate
  have keptReady : (map.slots kept).state = .ready := by
    simp only [evictable, Bool.and_eq_true, decide_eq_true_eq] at candidate
    exact candidate.1.1.1
  rw [state_ipmapEvictLru qsort evictCount now stored ready] at gone
  rw [state_ipmapEvictLru qsort evictCount now stored keptReady] at stays
  have picked : evicted ∈ evictPicks map qsort evictCount now := by
    by_contra absent
    simp [absent] at gone
  have spared : kept ∉ evictPicks map qsort evictCount now := by
    intro present
    simp [present] at stays
  have sorted := qsort.sorted (evictCandidates map now)
  have mem : kept ∈ qsort.sort (evictCandidates map now) :=
    (qsort.perm _).mem_iff.mpr (mem_evictCandidates.mpr candidate)
  have below := Selection.countP_lt_of_mem_take sorted picked
  have upTo := Selection.lt_countP_of_not_mem_take sorted mem spared
  rw [(qsort.perm _).countP_eq] at below upTo
  have before : (map.slots evicted).cnt.lruSeq ≤ (map.slots kept).cnt.lruSeq := by
    rw [← List.take_append_drop evictCount (qsort.sort _), List.pairwise_append] at sorted
    exact sorted.2.2 evicted picked kept (Selection.mem_drop_of_not_mem_take mem spared)
  rcases agrees evicted kept (mem_evictPicks picked) candidate older before with far | near
  · exact absurd below (not_lt.mpr far)
  · exact absurd upTo (not_lt.mpr near)

theorem seqAgrees_of_evictsByRecency (counted : map.Counted)
    (recency : map.EvictsByRecency evictCount now) : map.SeqAgrees evictCount now := by
  intro newer older newerCandidate olderCandidate seen before
  by_contra between
  rw [not_or, not_le, not_le] at between
  have apart : older ≠ newer := by
    rintro rfl
    exact lt_irrefl _ seen
  have ready : ∀ slot, evictable now (map.slots slot) = true → (map.slots slot).state = .ready := by
    intro slot candidate
    simp only [evictable, Bool.and_eq_true, decide_eq_true_eq] at candidate
    exact candidate.1.1.1
  have picked : newer ∈ evictPicks map (map.lruSortBetween newer older) evictCount now := by
    refine Selection.mem_take_sortBy (mem_evictCandidates.mpr newerCandidate) ?_ between.1
    intro other tie
    by_contra different
    simp only [different, if_false, if_true] at tie
    split at tie <;> omega
  have spared : older ∉ evictPicks map (map.lruSortBetween newer older) evictCount now := by
    refine Selection.not_mem_take_sortBy (nodup_evictCandidates map now) ?_ between.2
    intro other tie
    by_contra different
    simp only [apart, if_false, if_true] at tie
    split at tie <;> omega
  have stored := size_ne_zero_of_evictable counted newerCandidate
  refine recency (map.lruSortBetween newer older) newer older (ready newer newerCandidate) ?_
    olderCandidate ?_ seen
  · rw [state_ipmapEvictLru _ _ _ stored (ready newer newerCandidate), if_pos picked]
  · rw [state_ipmapEvictLru _ _ _ stored (ready older olderCandidate), if_neg spared]

end IpMap

/-- In every state that calls on the map reach, an eviction goes by recency exactly if the
counters of the candidates do not mislead it. -/
theorem evictsByRecency_mapRun_iff (events : List MapEvent) (evictCount : ℕ) (now : ℤ) :
    (mapRun ipmapInit events).EvictsByRecency evictCount now ↔
      (mapRun ipmapInit events).SeqAgrees evictCount now :=
  ⟨IpMap.seqAgrees_of_evictsByRecency (IpMap.counted_mapRun events),
    IpMap.evictsByRecency_of_seqAgrees (IpMap.counted_mapRun events)⟩

def burstEvents : List MapEvent :=
  [.getOrCreate (ascii "203.0.0.0"), .update 46010 { ts := 100 }, .update 46010 { ts := 100 },
    .getOrCreate (ascii "203.0.139.90"), .update 46011 { ts := 200 }]

def burstRecord : IpRecord :=
  ipmapUpdate (ipmapUpdate { ip := ascii "203.0.0.0", state := .ready } { ts := 100 }) { ts := 100 }

def singleRecord : IpRecord :=
  ipmapUpdate { ip := ascii "203.0.139.90", state := .ready } { ts := 200 }

def burstSlots : Slot → IpRecord := Function.update (fun _ => {}) 46010 burstRecord

theorem mapRun_burst :
    mapRun ipmapInit burstEvents = ⟨Function.update burstSlots 46011 singleRecord, 2, false⟩ := by
  have firstProbe : LinearProbe.probe homeSlot maxProbeLen ipmapInit.keys (ascii "203.0.0.0") =
      some 46010 := by
    decide +kernel
  have secondProbe : LinearProbe.probe homeSlot maxProbeLen (IpMap.mk burstSlots 1 false).keys
      (ascii "203.0.139.90") = some 46011 := by
    decide +kernel
  have first : (ipmapGetOrCreate ipmapInit (ascii "203.0.0.0")).2 = ⟨firstOfTwo, 1, false⟩ := by
    rfl
  have updates : (((IpMap.mk firstOfTwo 1 false).modifyReady 46010
      (ipmapUpdate · { ts := 100 })).modifyReady 46010 (ipmapUpdate · { ts := 100 })) =
        ⟨burstSlots, 1, false⟩ := by
    simp [IpMap.modifyReady, IpMap.setRecord, firstOfTwo, burstSlots, burstRecord, ipmapUpdate]
  have second : (ipmapGetOrCreate ⟨burstSlots, 1, false⟩ (ascii "203.0.139.90")).2 =
      ⟨Function.update burstSlots 46011 { ip := ascii "203.0.139.90", state := .ready }, 2,
        false⟩ := by
    rfl
  simp only [burstEvents, mapRun_cons, mapRun_nil, mapStep, first, updates, second]
  simp [IpMap.modifyReady, IpMap.setRecord, singleRecord]

theorem evictCandidates_burst :
    (evictCandidates (mapRun ipmapInit burstEvents) 1000).Perm [46010, 46011] := by
  rw [List.perm_ext_iff_of_nodup (IpMap.nodup_evictCandidates _ _) (by decide)]
  intro slot
  rw [IpMap.mem_evictCandidates, mapRun_burst]
  by_cases second : slot = 46011
  · subst second
    decide +kernel
  by_cases first : slot = 46010
  · subst first
    decide +kernel
  · simp [burstSlots, second, first, evictable]

/-- The record seen at time 200 is evicted, the one seen at time 100 is kept. -/
theorem recent_record_evicted :
    ¬(mapRun ipmapInit burstEvents).EvictsByRecency 1 1000 := by
  intro recency
  have agrees := IpMap.seqAgrees_of_evictsByRecency (IpMap.counted_mapRun burstEvents) recency
  have picks := agrees 46011 46010
  rw [IpMap.candidatesBelow, IpMap.candidatesUpTo, evictCandidates_burst.countP_eq,
    evictCandidates_burst.countP_eq] at picks
  revert picks
  decide +kernel

end LogGuardian
