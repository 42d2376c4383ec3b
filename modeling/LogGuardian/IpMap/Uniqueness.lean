import LogGuardian.IpMap.Basic

/-!
# One record for each address

The keys of the map form a linear-probing table.
-/

namespace LogGuardian

open List

open LinearProbe

namespace IpMap

/-- No two ready records hold the same string. -/
def UniqueReady (map : IpMap) : Prop :=
  ∀ left right ip, map.keys left = some ip → map.keys right = some ip → left = right

/-- `ipmap_get_or_create` returns the ready record of an address and changes nothing. -/
def ReturnsExisting (map : IpMap) : Prop :=
  ∀ slot ip, map.keys slot = some ip → ipmapGetOrCreate map ip = (some slot, map)

/-- The strings in the map passed the length test of `ipmap_get_or_create`. -/
def WellKeyed (map : IpMap) : Prop :=
  ∀ slot ip, map.keys slot = some ip → ip ≠ [] ∧ ip.length < ipStrLen

/-- The search finds every ready record. -/
def SoundKeys (map : IpMap) : Prop := Sound homeSlot maxProbeLen map.keys

end IpMap

theorem wellKeyed_ipmapInit : ipmapInit.WellKeyed := by
  simp [IpMap.WellKeyed, IpMap.keys, ipmapInit]

theorem soundKeys_ipmapInit : ipmapInit.SoundKeys := sound_empty

theorem overwriteRecord_ne (record : IpRecord) (ip : Bytes) : overwriteRecord record ip ≠ record := by
  intro same
  have version := congrArg IpRecord.version same
  simp only [overwriteRecord] at version
  omega

variable {map : IpMap} {ip : Bytes} {slot : Slot}

theorem ipmapGetOrCreate_of_probe (nonempty : ip ≠ []) (short : ip.length < ipStrLen)
    (found : probe homeSlot maxProbeLen map.keys ip = some slot) (stored : map.keys slot = some ip) :
    ipmapGetOrCreate map ip = (some slot, map) := by
  unfold ipmapGetOrCreate
  rw [if_neg (by simp [nonempty, short]), found]
  simp [(keys_eq_some_iff.mp stored).1]

theorem ipmapGetOrCreate_of_free (nonempty : ip ≠ []) (short : ip.length < ipStrLen)
    (found : probe homeSlot maxProbeLen map.keys ip = some slot) (free : map.keys slot = none) :
    ipmapGetOrCreate map ip =
      (some slot,
        { map.setRecord slot { map.slots slot with ip := ip, state := .ready } with
          size := map.size + 1 }) := by
  unfold ipmapGetOrCreate
  rw [if_neg (by simp [nonempty, short]), found]
  simp [keys_eq_none_iff.mp free]

theorem keys_ipmapGetOrCreate_of_free (nonempty : ip ≠ []) (short : ip.length < ipStrLen)
    (found : probe homeSlot maxProbeLen map.keys ip = some slot) (free : map.keys slot = none) :
    (ipmapGetOrCreate map ip).2.keys = Function.update map.keys slot (some ip) := by
  rw [ipmapGetOrCreate_of_free nonempty short found free]
  exact keys_setRecord rfl

theorem probe_of_ipmapGetOrCreate (nonempty : ip ≠ []) (short : ip.length < ipStrLen)
    (returned : ipmapGetOrCreate map ip = (some slot, map)) :
    probe homeSlot maxProbeLen map.keys ip = some slot := by
  unfold ipmapGetOrCreate at returned
  rw [if_neg (by simp [nonempty, short])] at returned
  split at returned
  · split at returned <;> simp_all
  · split at returned
    · simp only [Prod.mk.injEq, Option.some.injEq] at returned
      have overwritten := congrFun (congrArg IpMap.slots returned.2) slot
      rw [returned.1, setRecord_slots, Function.update_self] at overwritten
      exact absurd overwritten (overwriteRecord_ne _ _)
    · simp at returned

theorem soundKeys_iff (wellKeyed : map.WellKeyed) :
    map.SoundKeys ↔ map.UniqueReady ∧ map.ReturnsExisting := by
  constructor
  · intro sound
    refine ⟨fun left right ip => sound.unique, fun slot ip stored => ?_⟩
    have valid := wellKeyed slot ip stored
    exact ipmapGetOrCreate_of_probe valid.1 valid.2 (probe_of_mem sound stored) stored
  · rintro ⟨-, returns⟩
    refine sound_iff_probe.mpr fun slot ip stored => ?_
    have valid := wellKeyed slot ip stored
    exact probe_of_ipmapGetOrCreate valid.1 valid.2 (returns slot ip stored)

theorem mem_probeWindow :
    slot ∈ probeWindow ip ↔ ∃ distance < maxProbeLen, slotAt homeSlot ip distance = slot := by
  simp [probeWindow]

/-- A record that the forced overwrite may take. -/
def Overwritable (record : IpRecord) : Prop :=
  record.state = .ready ∧ record.threatStage < 2 ∧ record.cnt.lruSeq < 2 ^ 64 - 1

/-- The first record of least `lru_seq` among the overwritable ones in the first `span` slots of
the probe of an address. -/
def LeastRecent (map : IpMap) (ip : Bytes) (span : ℕ) (slot : Slot) : Prop :=
  ∃ distance < span, slotAt homeSlot ip distance = slot ∧ Overwritable (map.slots slot) ∧
    ∀ other < span, Overwritable (map.slots (slotAt homeSlot ip other)) →
      (map.slots slot).cnt.lruSeq ≤ (map.slots (slotAt homeSlot ip other)).cnt.lruSeq ∧
        (other < distance →
          (map.slots slot).cnt.lruSeq < (map.slots (slotAt homeSlot ip other)).cnt.lruSeq)

theorem oldestScan_spec (map : IpMap) (ip : Bytes) (span : ℕ) :
    (((List.range span).map (slotAt homeSlot ip)).foldl (oldestStep map) ⟨2 ^ 64 - 1, none⟩ =
        ⟨2 ^ 64 - 1, none⟩ ∧
      ∀ other < span, ¬Overwritable (map.slots (slotAt homeSlot ip other))) ∨
      ∃ slot,
        ((List.range span).map (slotAt homeSlot ip)).foldl (oldestStep map) ⟨2 ^ 64 - 1, none⟩ =
          ⟨(map.slots slot).cnt.lruSeq, some slot⟩ ∧ LeastRecent map ip span slot := by
  induction span with
  | zero => exact Or.inl ⟨rfl, by omega⟩
  | succ span ih =>
    rw [range_succ, map_append, foldl_append, map_singleton, foldl_cons]
    rcases ih with ⟨scan, nothing⟩ | ⟨slot, scan, distance, near, found, spec, least⟩
    · rw [scan]
      unfold oldestStep
      dsimp only
      split
      · rename_i taken
        refine Or.inr ⟨_, rfl, span, by omega, rfl, taken, fun other before overwritable => ?_⟩
        rcases Nat.lt_succ_iff_lt_or_eq.mp before with earlier | rfl
        · exact absurd overwritable (nothing other earlier)
        · exact ⟨le_rfl, by omega⟩
      · rename_i skipped
        refine Or.inl ⟨rfl, fun other before => ?_⟩
        rcases Nat.lt_succ_iff_lt_or_eq.mp before with earlier | rfl
        · exact nothing other earlier
        · exact skipped
    · rw [scan]
      unfold oldestStep
      dsimp only
      split
      · rename_i taken
        refine Or.inr ⟨_, rfl, span, by omega, rfl, ⟨taken.1, taken.2.1, taken.2.2.trans spec.2.2⟩,
          fun other before overwritable => ?_⟩
        rcases Nat.lt_succ_iff_lt_or_eq.mp before with earlier | rfl
        · have older := taken.2.2.trans_le (least other earlier overwritable).1
          exact ⟨older.le, fun _ => older⟩
        · exact ⟨le_rfl, by omega⟩
      · rename_i skipped
        refine Or.inr ⟨slot, rfl, distance, by omega, found, spec,
          fun other before overwritable => ?_⟩
        rcases Nat.lt_succ_iff_lt_or_eq.mp before with earlier | rfl
        · exact least other earlier overwritable
        · refine ⟨?_, by omega⟩
          by_contra older
          exact skipped ⟨overwritable.1, overwritable.2.1, by omega⟩

theorem leastRecent_unique {span : ℕ} {left right : Slot} (leftLeast : LeastRecent map ip span left)
    (rightLeast : LeastRecent map ip span right) :
    left = right := by
  rcases leftLeast with ⟨i, iNear, rfl, leftSpec, leftLe⟩
  rcases rightLeast with ⟨j, jNear, rfl, rightSpec, rightLe⟩
  have leftFirst := leftLe j jNear rightSpec
  have rightFirst := rightLe i iNear leftSpec
  have same : i = j := by omega
  rw [same]

theorem forcedVictim_eq_some_iff :
    forcedVictim map ip = some slot ↔ LeastRecent map ip maxProbeLen slot := by
  unfold forcedVictim probeWindow
  rcases oldestScan_spec map ip maxProbeLen with ⟨scan, nothing⟩ | ⟨found, scan, least⟩
  · rw [scan]
    refine ⟨fun impossible => by simp at impossible, ?_⟩
    rintro ⟨distance, near, rfl, overwritable, -⟩
    exact absurd overwritable (nothing distance near)
  · rw [scan]
    simp only [Option.some.injEq]
    exact ⟨fun same => same ▸ least, leastRecent_unique least⟩

/-- The ways in which `ipmap_get_or_create` ends. -/
inductive GetOrCreateOutcome (map : IpMap) (ip : Bytes) : Prop
  | rejected (invalid : ip = [] ∨ ipStrLen ≤ ip.length)
      (result : ipmapGetOrCreate map ip = (none, map))
  | found (slot : Slot) (nonempty : ip ≠ []) (short : ip.length < ipStrLen)
      (stops : probe homeSlot maxProbeLen map.keys ip = some slot) (stored : map.keys slot = some ip)
      (result : ipmapGetOrCreate map ip = (some slot, map))
  | created (slot : Slot) (nonempty : ip ≠ []) (short : ip.length < ipStrLen)
      (stops : probe homeSlot maxProbeLen map.keys ip = some slot) (free : map.keys slot = none)
      (result : ipmapGetOrCreate map ip =
        (some slot, { map.setRecord slot { map.slots slot with ip := ip, state := .ready } with
          size := map.size + 1 }))
  | overwritten (slot : Slot) (nonempty : ip ≠ []) (short : ip.length < ipStrLen)
      (full : probe homeSlot maxProbeLen map.keys ip = none)
      (victim : LeastRecent map ip maxProbeLen slot)
      (result : ipmapGetOrCreate map ip =
        (some slot, map.setRecord slot (overwriteRecord (map.slots slot) ip)))
  | refused (full : probe homeSlot maxProbeLen map.keys ip = none)
      (noVictim : ∀ slot, ¬LeastRecent map ip maxProbeLen slot)
      (result : ipmapGetOrCreate map ip = (none, { map with janitorEvictNeeded := true }))

theorem getOrCreateOutcome (map : IpMap) (ip : Bytes) : GetOrCreateOutcome map ip := by
  by_cases invalid : ip = [] ∨ ipStrLen ≤ ip.length
  · exact .rejected invalid (by rw [ipmapGetOrCreate, if_pos invalid])
  · have valid := invalid
    push Not at valid
    rcases stops : probe homeSlot maxProbeLen map.keys ip with _ | slot
    · rcases victim : forcedVictim map ip with _ | slot
      · refine .refused stops (fun slot least => ?_)
          (by simp only [ipmapGetOrCreate, if_neg invalid, stops, victim])
        simp [forcedVictim_eq_some_iff.mpr least] at victim
      · exact .overwritten slot valid.1 valid.2 stops (forcedVictim_eq_some_iff.mp victim)
          (by simp only [ipmapGetOrCreate, if_neg invalid, stops, victim])
    · rcases probe_eq_some_iff.mp stops with ⟨-, -, -, free | stored, -⟩
      · exact .created slot valid.1 valid.2 stops free
          (ipmapGetOrCreate_of_free valid.1 valid.2 stops free)
      · exact .found slot valid.1 valid.2 stops stored
          (ipmapGetOrCreate_of_probe valid.1 valid.2 stops stored)

theorem keys_ipmapGetOrCreate (map : IpMap) (ip : Bytes) :
    (ipmapGetOrCreate map ip).2.keys = map.keys ∨
      (ip ≠ [] ∧ ip.length < ipStrLen ∧
        ∃ slot, (ipmapGetOrCreate map ip).2.keys = Function.update map.keys slot (some ip) ∧
          ((probe homeSlot maxProbeLen map.keys ip = some slot ∧ map.keys slot = none) ∨
            (probe homeSlot maxProbeLen map.keys ip = none ∧ slot ∈ probeWindow ip))) := by
  cases getOrCreateOutcome map ip with
  | rejected invalid result => exact Or.inl (by rw [result])
  | found slot nonempty short stops stored result => exact Or.inl (by rw [result])
  | created slot nonempty short stops free result =>
    refine Or.inr ⟨nonempty, short, slot, ?_, Or.inl ⟨stops, free⟩⟩
    exact keys_ipmapGetOrCreate_of_free nonempty short stops free
  | overwritten slot nonempty short full victim result =>
    rcases victim with ⟨distance, near, found, -⟩
    refine Or.inr ⟨nonempty, short, slot, ?_, Or.inr ⟨full, ?_⟩⟩
    · rw [result]
      exact keys_setRecord rfl
    · exact mem_probeWindow.mpr ⟨distance, near, found⟩
  | refused full noVictim result =>
    rw [result]
    exact Or.inl rfl

theorem soundKeys_ipmapGetOrCreate (sound : map.SoundKeys) (ip : Bytes) :
    (ipmapGetOrCreate map ip).2.SoundKeys := by
  unfold IpMap.SoundKeys
  rcases keys_ipmapGetOrCreate map ip with same | ⟨-, -, slot, stored, place⟩
  · rw [same]
    exact sound
  · rw [stored]
    rcases place with ⟨found, free⟩ | ⟨full, inWindow⟩
    · rcases probe_eq_some_iff.mp found with ⟨distance, near, at_, -, goesOn⟩
      exact sound_store sound (not_mem_of_probe_free sound found free) near at_
        fun earlier before => (goesOn earlier before).1
    · rcases mem_probeWindow.mp inWindow with ⟨distance, near, at_⟩
      exact sound_store sound (not_mem_of_probe_none sound full) near at_
        fun earlier before => (probe_eq_none_iff.mp full earlier (before.trans near)).1

/-- The eviction frees no slot on the way to a record that it keeps. -/
def EvictionStrandsNone (map : IpMap) : MapEvent → Prop
  | .evictLru qsort evictCount now =>
    map.size ≠ 0 →
      StrandsNone homeSlot maxProbeLen map.keys
        (· ∈ evictPicks map (qsort map) evictCount now)
  | _ => True

theorem keys_ipmapEvictLru (qsort : LruSort map) (evictCount : ℕ) (now : ℤ) (stored : map.size ≠ 0) :
    (ipmapEvictLru map qsort evictCount now).keys = fun slot =>
      if slot ∈ evictPicks map qsort evictCount now then none else map.keys slot := by
  funext slot
  simp only [IpMap.keys, slots_ipmapEvictLru qsort evictCount now stored]
  split_ifs <;> simp_all [evictedRecord]

theorem wellKeyed_mapStep (wellKeyed : map.WellKeyed) (event : MapEvent) :
    (mapStep map event).WellKeyed := by
  cases event with
  | getOrCreate ip =>
    intro slot other stored
    simp only [mapStep] at stored
    rcases keys_ipmapGetOrCreate map ip with same | ⟨nonempty, short, changed, keys, -⟩
    · rw [same] at stored
      exact wellKeyed slot other stored
    · rw [keys] at stored
      by_cases here : slot = changed
      · rw [here, Function.update_self, Option.some.injEq] at stored
        exact stored ▸ ⟨nonempty, short⟩
      · rw [Function.update_of_ne here] at stored
        exact wellKeyed slot other stored
  | update slot entry => simpa only [IpMap.WellKeyed, keys_mapStep_update] using wellKeyed
  | store slot stores => simpa only [IpMap.WellKeyed, keys_mapStep_store] using wellKeyed
  | evictLru qsort evictCount now =>
    intro slot other stored
    simp only [mapStep] at stored
    by_cases vacant : map.size = 0
    · rw [ipmapEvictLru_of_size_eq_zero _ _ _ vacant] at stored
      exact wellKeyed slot other stored
    · rw [keys_ipmapEvictLru _ _ _ vacant] at stored
      dsimp only at stored
      split_ifs at stored
      exact wellKeyed slot other stored
  | expireBans now lifted =>
    simpa only [IpMap.WellKeyed, keys_mapStep_expireBans] using wellKeyed

theorem soundKeys_mapStep_iff (sound : map.SoundKeys) (event : MapEvent) :
    (mapStep map event).SoundKeys ↔ EvictionStrandsNone map event := by
  cases event with
  | getOrCreate ip => exact iff_of_true (soundKeys_ipmapGetOrCreate sound ip) trivial
  | update slot entry =>
    simpa only [IpMap.SoundKeys, keys_mapStep_update, EvictionStrandsNone, iff_true] using sound
  | store slot stores =>
    simpa only [IpMap.SoundKeys, keys_mapStep_store, EvictionStrandsNone, iff_true] using sound
  | evictLru qsort evictCount now =>
    unfold EvictionStrandsNone
    by_cases vacant : map.size = 0
    · simpa [mapStep, ipmapEvictLru_of_size_eq_zero _ _ _ vacant, vacant] using sound
    · simp only [IpMap.SoundKeys, mapStep, keys_ipmapEvictLru _ _ _ vacant, ne_eq, vacant,
        not_false_eq_true, true_imp_iff]
      exact sound_free_iff (by decide) sound
  | expireBans now lifted =>
    simpa only [IpMap.SoundKeys, keys_mapStep_expireBans, EvictionStrandsNone, iff_true]
      using sound

/-- No eviction of the run strands a record in the state it starts from. -/
def SafeRun (events : List MapEvent) : Prop :=
  Machine.Guarded mapStep EvictionStrandsNone ipmapInit events

/-- Along a run, every address keeps one record and `ipmap_get_or_create` returns it, exactly
when no eviction of the run strands a record. -/
theorem uniqueness_iff_safeRun (events : List MapEvent) :
    (∀ before, before <+: events →
        (mapRun ipmapInit before).UniqueReady ∧ (mapRun ipmapInit before).ReturnsExisting) ↔
      SafeRun events := by
  have keyed : ∀ before, (mapRun ipmapInit before).WellKeyed :=
    Machine.run_invariant IpMap.WellKeyed (fun _ event wellKeyed => wellKeyed_mapStep wellKeyed event)
      wellKeyed_ipmapInit
  unfold SafeRun
  rw [← Machine.forall_prefix_iff_guarded IpMap.SoundKeys
    (fun _ event sound => soundKeys_mapStep_iff sound event) soundKeys_ipmapInit]
  apply forall_congr'
  intro before
  apply imp_congr_right
  intro _
  exact (soundKeys_iff (keyed before)).symm

def firstOfTwo : Slot → IpRecord :=
  Function.update (fun _ => {}) 46010 { ip := ascii "203.0.0.0", state := .ready }

def collisionMap : IpMap where
  slots := Function.update firstOfTwo 46011
    (ipmapUpdate { ip := ascii "203.0.139.90", state := .ready } { ts := 1000 })
  size := 2
  janitorEvictNeeded := false

def collisionEvents : List MapEvent :=
  [.getOrCreate (ascii "203.0.0.0"), .getOrCreate (ascii "203.0.139.90"),
    .update 46011 { ts := 1000 }]

theorem mapRun_collision : mapRun ipmapInit collisionEvents = collisionMap := by
  have firstProbe : probe homeSlot maxProbeLen ipmapInit.keys (ascii "203.0.0.0") = some 46010 := by
    decide +kernel
  have secondProbe : probe homeSlot maxProbeLen (IpMap.mk firstOfTwo 1 false).keys
      (ascii "203.0.139.90") = some 46011 := by
    decide +kernel
  have first : (ipmapGetOrCreate ipmapInit (ascii "203.0.0.0")).2 = ⟨firstOfTwo, 1, false⟩ := by
    rfl
  have second : (ipmapGetOrCreate ⟨firstOfTwo, 1, false⟩ (ascii "203.0.139.90")).2 =
      ⟨Function.update firstOfTwo 46011 { ip := ascii "203.0.139.90", state := .ready }, 2,
        false⟩ := by
    rfl
  simp only [collisionEvents, mapRun_cons, mapRun_nil, mapStep, first, second]
  simp [IpMap.modifyReady, IpMap.setRecord, collisionMap]

theorem evictable_collision (slot : Slot) :
    evictable 1000 (collisionMap.slots slot) = true ↔ slot = 46010 := by
  by_cases second : slot = 46011
  · subst second
    decide +kernel
  by_cases first : slot = 46010
  · subst first
    decide +kernel
  · simp [collisionMap, firstOfTwo, second, first, evictable]

theorem filter_finRange_eq_singleton {test : Slot → Bool}
    (only : ∀ other, test other = true ↔ other = slot) :
    (List.finRange mapCapacity).filter test = [slot] := by
  have same : test = (· == slot) := by
    funext other
    rw [Bool.eq_iff_iff, only other, beq_iff_eq]
  rw [same, filter_beq, count_eq_one_of_mem (nodup_finRange _) (mem_finRange _)]
  rfl

theorem evictPicks_collision (qsort : LruSort collisionMap) :
    evictPicks collisionMap qsort 1 1000 = [46010] := by
  have candidates : evictCandidates collisionMap 1000 = [46010] :=
    filter_finRange_eq_singleton evictable_collision
  unfold evictPicks
  rw [candidates, List.perm_singleton.mp (qsort.perm [46010])]
  rfl

theorem keys_evicted_collision :
    (mapStep collisionMap (.evictLru lruMergeSort 1 1000)).keys =
      Function.update (fun _ => none) 46011 (some (ascii "203.0.139.90")) := by
  rw [mapStep, keys_ipmapEvictLru _ _ _ (by decide), evictPicks_collision]
  funext slot
  by_cases second : slot = 46011
  · subst second
    decide +kernel
  · by_cases first : slot = 46010
    · subst first
      decide +kernel
    · simp [collisionMap, firstOfTwo, second, first, IpMap.keys]

/-- The eviction frees slot 46010, the home of the record at slot 46011: the next call for that
address does not reach its record and makes a second one. -/
theorem uniqueness_broken_by_eviction :
    ¬(mapRun ipmapInit (collisionEvents ++
        [.evictLru lruMergeSort 1 1000, .getOrCreate (ascii "203.0.139.90")])).UniqueReady := by
  have keys := keys_evicted_collision
  have run : mapRun ipmapInit (collisionEvents ++
        [.evictLru lruMergeSort 1 1000, .getOrCreate (ascii "203.0.139.90")]) =
      mapStep (mapStep collisionMap (.evictLru lruMergeSort 1 1000))
        (.getOrCreate (ascii "203.0.139.90")) := by
    rw [mapRun_append, mapRun_collision, mapRun_cons, mapRun_cons, mapRun_nil]
  rw [run]
  generalize mapStep collisionMap (.evictLru lruMergeSort 1 1000) = evicted at keys ⊢
  have again : probe homeSlot maxProbeLen evicted.keys (ascii "203.0.139.90") = some 46010 := by
    rw [keys]
    decide +kernel
  have free : evicted.keys 46010 = none := by
    rw [keys]
    decide
  have apart : (46011 : Slot) ≠ 46010 := by decide
  intro unique
  rw [IpMap.UniqueReady, mapStep, keys_ipmapGetOrCreate_of_free (by decide) (by decide) again free,
    keys] at unique
  exact apart (unique 46011 46010 (ascii "203.0.139.90")
    (by rw [Function.update_of_ne apart, Function.update_self]) (by rw [Function.update_self]))

end LogGuardian
