import LogGuardian.IpMap.Uniqueness

/-!
# Fresh records and retained bans
-/

namespace LogGuardian

open List

open LinearProbe

/-- A record as the analyzer expects it for a new address. -/
structure Pristine (record : IpRecord) : Prop where
  banned : record.banned = false
  banUntilTs : record.banUntilTs = 0
  lastAlertTs : record.lastAlertTs = 0
  threatStage : record.threatStage = 0
  cnt : record.cnt = {}
  windowHead : record.window.head = 0
  windowCount : record.window.count = 0

namespace IpMap

/-- The address has no ready record. -/
def Absent (map : IpMap) (ip : Bytes) : Prop := ∀ slot, map.keys slot ≠ some ip

/-- A record returned for an address without one is pristine. -/
def FreshFor (map : IpMap) (ip : Bytes) : Prop :=
  map.Absent ip → ∀ slot, (ipmapGetOrCreate map ip).1 = some slot →
    Pristine ((ipmapGetOrCreate map ip).2.slots slot)

/-- Every banned record is still there under its address. -/
def RetainsBans (before after : IpMap) : Prop :=
  ∀ slot, (before.slots slot).state = .ready → (before.slots slot).banned = true →
    (after.slots slot).state = .ready ∧ (after.slots slot).ip = (before.slots slot).ip

/-- Empty slots hold nothing of an earlier record. -/
def EmptyPristine (map : IpMap) : Prop :=
  ∀ slot, (map.slots slot).state = .empty → Pristine (map.slots slot)

/-- Every slot of the probe of an address holds another address. -/
def WindowFull (map : IpMap) (ip : Bytes) : Prop :=
  ∀ distance < maxProbeLen, map.keys (slotAt homeSlot ip distance) ≠ none ∧
    map.keys (slotAt homeSlot ip distance) ≠ some ip

/-- When the probe finds neither the address nor an empty slot, the least recently used
overwritable record is not banned and, if the address is new, carries no ban or alert time. -/
def VictimClean (map : IpMap) (ip : Bytes) : Prop :=
  ip ≠ [] → ip.length < ipStrLen → map.WindowFull ip →
    ∀ slot, LeastRecent map ip maxProbeLen slot →
      (map.slots slot).banned = false ∧
        (map.Absent ip → (map.slots slot).banUntilTs = 0 ∧ (map.slots slot).lastAlertTs = 0)

end IpMap

theorem pristine_default : Pristine {} := ⟨rfl, rfl, rfl, rfl, rfl, rfl, rfl⟩

theorem pristine_evictedRecord (record : IpRecord) : Pristine (evictedRecord record) :=
  ⟨rfl, rfl, rfl, rfl, rfl, rfl, rfl⟩

variable {map after : IpMap} {slot : Slot} {record : IpRecord} {ip : Bytes}

theorem emptyPristine_setRecord (clean : map.EmptyPristine) (ready : record.state = .ready) :
    (map.setRecord slot record).EmptyPristine := by
  intro other empty
  by_cases same : other = slot
  · subst same
    simp [ready] at empty
  · simp only [setRecord_slots, Function.update_of_ne same] at empty ⊢
    exact clean other empty

theorem emptyPristine_modifyReady (clean : map.EmptyPristine) {change : IpRecord → IpRecord}
    (keepsState : ∀ record, (change record).state = record.state) :
    (map.modifyReady slot change).EmptyPristine := by
  unfold IpMap.modifyReady
  split
  · rename_i ready
    exact emptyPristine_setRecord clean ((keepsState _).trans ready)
  · exact clean

theorem emptyPristine_mapStep (clean : map.EmptyPristine) (event : MapEvent) :
    (mapStep map event).EmptyPristine := by
  cases event with
  | getOrCreate ip =>
    rw [mapStep]
    cases getOrCreateOutcome map ip with
    | rejected invalid result => rwa [result]
    | found slot nonempty short stops stored result => rwa [result]
    | created slot nonempty short stops free result =>
      rw [result]
      exact emptyPristine_setRecord clean rfl
    | overwritten slot nonempty short full victim result =>
      rw [result]
      exact emptyPristine_setRecord clean rfl
    | refused full noVictim result => rwa [result]
  | update slot entry => exact emptyPristine_modifyReady clean fun _ => rfl
  | store slot stores => exact emptyPristine_modifyReady clean fun _ => rfl
  | evictLru qsort evictCount now =>
    by_cases vacant : map.size = 0
    · rw [mapStep, ipmapEvictLru_of_size_eq_zero _ _ _ vacant]
      exact clean
    · intro slot empty
      simp only [mapStep, slots_ipmapEvictLru _ _ _ vacant] at empty ⊢
      split_ifs at empty ⊢
      · exact pristine_evictedRecord _
      · exact clean slot empty
  | expireBans now lifted =>
    intro slot empty
    simp only [mapStep, ipmapExpireBans, expireRecord] at empty ⊢
    split_ifs at empty ⊢ with expired
    · simp [expired.1] at empty
    · exact clean slot empty

theorem emptyPristine_mapRun (events : List MapEvent) :
    (mapRun ipmapInit events).EmptyPristine :=
  Machine.run_invariant IpMap.EmptyPristine (fun _ event clean => emptyPristine_mapStep clean event)
    (fun _ _ => pristine_default) events

theorem retainsBans_of_slots_eq {before : IpMap} (slots : after.slots = before.slots) :
    before.RetainsBans after := by
  intro slot ready _
  rw [slots]
  exact ⟨ready, rfl⟩

theorem retainsBans_ipmapEvictLru (map : IpMap) (qsort : LruSort map) (evictCount : ℕ) (now : ℤ) :
    map.RetainsBans (ipmapEvictLru map qsort evictCount now) := by
  by_cases vacant : map.size = 0
  · rw [ipmapEvictLru_of_size_eq_zero _ _ _ vacant]
    exact retainsBans_of_slots_eq rfl
  · intro slot ready banned
    rw [slots_ipmapEvictLru _ _ _ vacant]
    dsimp only
    split
    · rename_i picked
      have candidate := mem_evictPicks picked
      simp [evictable, banned] at candidate
    · exact ⟨ready, rfl⟩

theorem retainsBans_update_iff (slots : after.slots = Function.update map.slots slot record)
    (ready : record.state = .ready) :
    map.RetainsBans after ↔
      ((map.slots slot).state = .ready → (map.slots slot).banned = true →
        record.ip = (map.slots slot).ip) := by
  constructor
  · intro retains slotReady banned
    have kept := (retains slot slotReady banned).2
    rwa [slots, Function.update_self] at kept
  · intro keepsIp other otherReady banned
    rw [slots]
    by_cases same : other = slot
    · subst same
      rw [Function.update_self]
      exact ⟨ready, keepsIp otherReady banned⟩
    · rw [Function.update_of_ne same]
      exact ⟨otherReady, rfl⟩

theorem pristine_overwriteRecord_iff (record : IpRecord) (ip : Bytes) :
    Pristine (overwriteRecord record ip) ↔
      record.banned = false ∧ record.banUntilTs = 0 ∧ record.lastAlertTs = 0 := by
  constructor
  · intro pristine
    exact ⟨pristine.banned, pristine.banUntilTs, pristine.lastAlertTs⟩
  · rintro ⟨banned, banUntilTs, lastAlertTs⟩
    exact ⟨banned, banUntilTs, lastAlertTs, rfl, rfl, rfl, rfl⟩

theorem freshFor_created (clean : map.EmptyPristine) (free : map.keys slot = none) :
    Pristine { map.slots slot with ip := ip, state := .ready } := by
  have pristine := clean slot (keys_eq_none_iff.mp free)
  exact ⟨pristine.banned, pristine.banUntilTs, pristine.lastAlertTs, pristine.threatStage,
    pristine.cnt, pristine.windowHead, pristine.windowCount⟩

theorem freshFor_and_retainsBans_iff (clean : map.EmptyPristine) (ip : Bytes) :
    map.FreshFor ip ∧ map.RetainsBans (ipmapGetOrCreate map ip).2 ↔ map.VictimClean ip := by
  unfold IpMap.FreshFor
  cases getOrCreateOutcome map ip with
  | rejected invalid result =>
    rw [result]
    refine iff_of_true ⟨by simp, retainsBans_of_slots_eq rfl⟩ fun nonempty short => ?_
    rcases invalid with empty | long
    · exact absurd empty nonempty
    · omega
  | found slot nonempty short stops stored result =>
    rw [result]
    refine iff_of_true ⟨fun absent => absurd stored (absent slot), retainsBans_of_slots_eq rfl⟩ ?_
    intro _ _ full
    rw [probe_eq_none_iff.mpr full] at stops
    simp at stops
  | created slot nonempty short stops free result =>
    rw [result]
    refine iff_of_true ⟨fun _ returned same => ?_, ?_⟩ fun _ _ full => ?_
    · simp only [Option.some.injEq] at same
      subst same
      simpa using freshFor_created clean free
    · refine (retainsBans_update_iff rfl rfl).mpr fun ready => ?_
      simp [keys_eq_none_iff.mp free] at ready
    · rw [probe_eq_none_iff.mpr full] at stops
      simp at stops
  | overwritten slot nonempty short full victim result =>
    have otherAddress : (map.slots slot).ip ≠ ip := by
      rcases victim with ⟨distance, near, rfl, overwritable, -⟩
      intro same
      exact (probe_eq_none_iff.mp full distance near).2 (keys_eq_some_iff.mpr ⟨overwritable.1, same⟩)
    have ready : (map.slots slot).state = .ready := by
      rcases victim with ⟨-, -, -, overwritable, -⟩
      exact overwritable.1
    rw [result, retainsBans_update_iff rfl rfl]
    constructor
    · rintro ⟨fresh, retains⟩ - - - other least
      obtain rfl := leastRecent_unique least victim
      refine ⟨?_, fun absent => ?_⟩
      · by_contra banned
        exact otherAddress (retains ready (by simpa using banned)).symm
      · have pristine := fresh absent other rfl
        rw [setRecord_slots, Function.update_self, pristine_overwriteRecord_iff] at pristine
        exact pristine.2
    · intro cleanVictim
      rcases cleanVictim nonempty short (probe_eq_none_iff.mp full) slot victim with
        ⟨notBanned, noTimes⟩
      refine ⟨fun absent returned same => ?_, fun _ banned => ?_⟩
      · simp only [Option.some.injEq] at same
        rw [← same, setRecord_slots, Function.update_self, pristine_overwriteRecord_iff]
        exact ⟨notBanned, noTimes absent⟩
      · simp [notBanned] at banned
  | refused full noVictim result =>
    rw [result]
    refine iff_of_true ⟨by simp, retainsBans_of_slots_eq rfl⟩ ?_
    exact fun _ _ _ slot least => absurd least (noVictim slot)

/-- In every reachable state and for every address: a record handed out for an address without
one is pristine and neither call removes or relabels a banned record, exactly when the record
that the forced overwrite would take is clean. -/
theorem freshness_iff_victimClean (events : List MapEvent) (ip : Bytes) :
    ((mapRun ipmapInit events).FreshFor ip ∧
        (mapRun ipmapInit events).RetainsBans (ipmapGetOrCreate (mapRun ipmapInit events) ip).2 ∧
        ∀ qsort evictCount now, (mapRun ipmapInit events).RetainsBans
          (ipmapEvictLru (mapRun ipmapInit events) qsort evictCount now)) ↔
      (mapRun ipmapInit events).VictimClean ip := by
  rw [← freshFor_and_retainsBans_iff (emptyPristine_mapRun events) ip, ← and_assoc, and_iff_left]
  exact retainsBans_ipmapEvictLru _

theorem slotAt_zero (ip : Bytes) : slotAt homeSlot ip 0 = homeSlot ip := by
  simp [slotAt]

theorem probe_of_vacant_home (vacant : map.slots (homeSlot ip) = {}) :
    probe homeSlot maxProbeLen map.keys ip = some (homeSlot ip) := by
  refine probe_eq_some_iff.mpr ⟨0, by decide, slotAt_zero ip, Or.inl ?_, by simp⟩
  rw [keys_eq_none_iff, vacant]

theorem slots_mapRun_getOrCreate {ips : List Bytes}
    (valid : ∀ ip ∈ ips, ip ≠ [] ∧ ip.length < ipStrLen) (homes : (ips.map homeSlot).Nodup)
    (vacant : ∀ ip ∈ ips, map.slots (homeSlot ip) = {}) :
    (∀ ip ∈ ips, (mapRun map (ips.map .getOrCreate)).slots (homeSlot ip) =
        { ip := ip, state := .ready }) ∧
      ∀ slot, slot ∉ ips.map homeSlot →
        (mapRun map (ips.map .getOrCreate)).slots slot = map.slots slot := by
  induction ips generalizing map with
  | nil => simp [mapRun_nil]
  | cons first rest ih =>
    rcases List.nodup_cons.mp homes with ⟨elsewhere, restHomes⟩
    have firstVacant := vacant first mem_cons_self
    rcases valid first mem_cons_self with ⟨nonempty, short⟩
    have stored : (mapStep map (.getOrCreate first)).slots =
        Function.update map.slots (homeSlot first) { ip := first, state := .ready } := by
      rw [mapStep, ipmapGetOrCreate_of_free nonempty short (probe_of_vacant_home firstVacant)
        (by rw [keys_eq_none_iff, firstVacant]), setRecord_slots, firstVacant]
    have apart : ∀ ip ∈ rest, homeSlot ip ≠ homeSlot first :=
      fun ip mem same => elsewhere (same ▸ mem_map_of_mem mem)
    rcases ih (fun ip mem => valid ip (mem_cons_of_mem _ mem)) restHomes
      (fun ip mem => by
        rw [stored, Function.update_of_ne (apart ip mem)]
        exact vacant ip (mem_cons_of_mem _ mem)) with ⟨restStored, frame⟩
    rw [map_cons, mapRun_cons]
    constructor
    · intro ip mem
      rcases List.mem_cons.mp mem with rfl | later
      · rw [frame _ elsewhere, stored, Function.update_self]
      · exact restStored ip later
    · intro slot outside
      simp only [map_cons, mem_cons, not_or] at outside
      rw [frame slot outside.2, stored, Function.update_of_ne outside.1]

section FullWindow

variable {ips : List Bytes} {newcomer : Bytes}

/-- The addresses fill the probe window of the newcomer, in order. -/
structure FillsWindow (ips : List Bytes) (newcomer : Bytes) : Prop where
  homes : ips.map homeSlot = (List.range maxProbeLen).map (slotAt homeSlot newcomer)
  valid : ∀ ip ∈ ips, ip ≠ [] ∧ ip.length < ipStrLen
  absent : newcomer ∉ ips

theorem FillsWindow.nodup_homes (fills : FillsWindow ips newcomer) : (ips.map homeSlot).Nodup := by
  rw [fills.homes]
  refine List.Nodup.map_on (fun left leftMem right rightMem same => ?_) nodup_range
  have leftLt := (List.mem_range.mp leftMem).trans (by decide : maxProbeLen < mapCapacity)
  have rightLt := (List.mem_range.mp rightMem).trans (by decide : maxProbeLen < mapCapacity)
  exact slotAt_injective leftLt rightLt same

theorem FillsWindow.slots (fills : FillsWindow ips newcomer) {distance : ℕ}
    (near : distance < maxProbeLen) :
    ∃ ip, ip ≠ newcomer ∧ (mapRun ipmapInit (ips.map .getOrCreate)).slots
      (slotAt homeSlot newcomer distance) = { ip := ip, state := .ready } := by
  have vacant : ∀ ip ∈ ips, ipmapInit.slots (homeSlot ip) = {} := fun _ _ => rfl
  have stored := (slots_mapRun_getOrCreate fills.valid fills.nodup_homes vacant).1
  have home : slotAt homeSlot newcomer distance ∈ ips.map homeSlot := by
    rw [fills.homes]
    exact mem_map_of_mem (List.mem_range.mpr near)
  rcases List.mem_map.mp home with ⟨ip, mem, same⟩
  refine ⟨ip, fun isNewcomer => fills.absent (isNewcomer ▸ mem), ?_⟩
  rw [← same]
  exact stored ip mem

theorem FillsWindow.leastRecent (fills : FillsWindow ips newcomer) {stores : RecordStores}
    (calm : stores.threatStage < 2) :
    (mapRun ipmapInit (ips.map .getOrCreate ++ [.store (homeSlot newcomer) stores])).WindowFull
        newcomer ∧
      LeastRecent (mapRun ipmapInit (ips.map .getOrCreate ++ [.store (homeSlot newcomer) stores]))
        newcomer maxProbeLen (homeSlot newcomer) ∧
      ((mapRun ipmapInit (ips.map .getOrCreate ++
        [.store (homeSlot newcomer) stores])).slots (homeSlot newcomer)).banned = stores.banned := by
  rw [mapRun_append, mapRun_cons, mapRun_nil]
  have atHome := fills.slots (by decide : 0 < maxProbeLen)
  rw [slotAt_zero] at atHome
  have window := fun distance (near : distance < maxProbeLen) => fills.slots near
  generalize mapRun ipmapInit (ips.map .getOrCreate) = map at atHome window ⊢
  rcases atHome with ⟨resident, -, atHome⟩
  have home : (mapStep map (.store (homeSlot newcomer) stores)).slots (homeSlot newcomer) =
      storeRecord { ip := resident, state := .ready } stores := by
    simp [mapStep, IpMap.modifyReady, atHome]
  refine ⟨?_, ⟨0, by decide, slotAt_zero _, ?_, fun other near overwritable => ⟨?_, by simp⟩⟩, ?_⟩
  · intro distance near
    rw [keys_mapStep_store]
    rcases window distance near with ⟨ip, other, stored⟩
    simp [IpMap.keys, stored, other]
  · rw [home]
    exact ⟨rfl, calm, by simp [storeRecord]⟩
  · rw [home]
    exact Nat.zero_le _
  · rw [home]
    rfl

end FullWindow

/-- Octets of 200 addresses `203.x.y.z` whose homes are the slots 0 to 199, in this order. -/
def windowOctets : List (ℕ × ℕ × ℕ) := [
  (0, 38, 146), (2, 191, 220), (0, 19, 103), (1, 88, 178), (0, 113, 23), (0, 175, 242),
  (2, 82, 246), (3, 207, 74), (0, 248, 215), (0, 109, 139), (2, 182, 5), (1, 13, 251),
  (1, 112, 45), (0, 135, 178), (0, 67, 243), (0, 237, 54), (0, 105, 172), (0, 27, 163),
  (1, 154, 177), (1, 230, 218), (0, 37, 163), (0, 93, 247), (0, 16, 72), (3, 43, 56),
  (0, 35, 99), (0, 83, 147), (1, 88, 245), (2, 100, 55), (2, 131, 98), (0, 101, 49),
  (0, 16, 139), (0, 220, 25), (0, 8, 194), (0, 106, 17), (1, 21, 130), (2, 104, 77),
  (0, 223, 90), (0, 8, 157), (0, 84, 211), (0, 37, 218), (1, 127, 7), (1, 13, 17), (4, 114, 64),
  (0, 14, 167), (0, 9, 7), (0, 25, 62), (1, 165, 245), (1, 211, 222), (0, 159, 21), (1, 9, 56),
  (0, 19, 77), (1, 149, 88), (1, 75, 5), (1, 194, 239), (0, 38, 14), (0, 34, 103), (0, 215, 240),
  (0, 106, 31), (1, 157, 88), (2, 160, 187), (1, 219, 252), (0, 97, 70), (0, 80, 152),
  (1, 76, 128), (1, 86, 223), (1, 33, 163), (1, 23, 231), (0, 14, 105), (0, 202, 121),
  (0, 197, 149), (0, 120, 23), (1, 12, 221), (0, 157, 205), (3, 108, 128), (1, 66, 102),
  (0, 185, 128), (0, 48, 59), (0, 86, 230), (6, 20, 192), (0, 34, 161), (2, 67, 83),
  (0, 53, 100), (0, 86, 169), (1, 115, 157), (0, 225, 241), (0, 97, 52), (0, 197, 203),
  (0, 47, 224), (0, 59, 215), (0, 98, 88), (1, 54, 53), (0, 191, 251), (0, 70, 168), (1, 90, 89),
  (0, 86, 158), (1, 12, 207), (0, 102, 247), (0, 116, 81), (0, 91, 208), (1, 250, 223),
  (0, 196, 42), (0, 166, 99), (0, 7, 205), (0, 30, 40), (0, 124, 43), (0, 53, 122), (0, 76, 137),
  (1, 9, 120), (1, 132, 72), (0, 121, 227), (0, 119, 159), (0, 34, 22), (1, 25, 187),
  (0, 134, 100), (3, 99, 41), (1, 111, 247), (0, 33, 130), (0, 204, 111), (1, 108, 112),
  (1, 45, 67), (2, 122, 113), (0, 121, 238), (1, 77, 54), (0, 157, 26), (0, 196, 20),
  (0, 72, 132), (0, 248, 60), (2, 7, 44), (0, 90, 108), (1, 116, 246), (0, 83, 41), (2, 68, 29),
  (0, 42, 255), (0, 111, 57), (0, 245, 201), (3, 91, 95), (0, 225, 23), (0, 134, 122),
  (1, 183, 124), (0, 12, 66), (2, 233, 123), (3, 29, 21), (0, 120, 111), (1, 90, 234),
  (0, 226, 48), (0, 119, 253), (2, 33, 66), (1, 113, 54), (0, 134, 15), (1, 26, 239),
  (2, 32, 221), (1, 242, 213), (1, 46, 85), (0, 183, 72), (0, 38, 218), (0, 46, 52),
  (0, 190, 178), (0, 150, 216), (0, 74, 180), (1, 27, 180), (0, 128, 113), (0, 24, 230),
  (1, 218, 127), (0, 12, 44), (0, 255, 60), (3, 82, 118), (2, 81, 85), (2, 33, 209), (4, 41, 81),
  (0, 194, 111), (0, 94, 3), (1, 49, 67), (1, 252, 174), (2, 109, 90), (1, 26, 23),
  (2, 176, 142), (1, 188, 226), (0, 17, 144), (0, 65, 201), (1, 172, 20), (0, 85, 151),
  (0, 28, 87), (1, 83, 189), (0, 44, 146), (0, 24, 22), (0, 24, 212), (0, 188, 131), (0, 95, 9),
  (0, 255, 46), (0, 136, 50), (0, 85, 243), (1, 116, 154), (0, 109, 37), (1, 6, 161),
  (0, 210, 221), (0, 89, 80), (0, 46, 237), (0, 72, 244), (1, 235, 106), (0, 210, 172)]

def octetText (octet : ℕ) : Bytes :=
  if octet < 10 then [(48 + octet).toUInt8]
  else if octet < 100 then [(48 + octet / 10).toUInt8, (48 + octet % 10).toUInt8]
  else [(48 + octet / 100).toUInt8, (48 + octet / 10 % 10).toUInt8, (48 + octet % 10).toUInt8]

def windowAddresses : List Bytes :=
  windowOctets.map fun octets =>
    ascii "203." ++ octetText octets.1 ++ [chr '.'] ++ octetText octets.2.1 ++ [chr '.'] ++
      octetText octets.2.2

theorem fillsWindow_windowAddresses : FillsWindow windowAddresses (ascii "203.0.159.210") where
  homes := by decide +kernel
  valid := by decide +kernel
  absent := by decide +kernel

def banStores : RecordStores := ⟨0, true, 5000, 1000, 0, 0, List.replicate 8 0⟩

def fullWindowEvents : List MapEvent :=
  windowAddresses.map .getOrCreate ++ [.store (homeSlot (ascii "203.0.159.210")) banStores]

/-- The next address with that home takes over the banned record and inherits its ban. -/
theorem freshness_broken_by_overwrite :
    ¬((mapRun ipmapInit fullWindowEvents).FreshFor (ascii "203.0.159.210") ∧
      (mapRun ipmapInit fullWindowEvents).RetainsBans
        (ipmapGetOrCreate (mapRun ipmapInit fullWindowEvents) (ascii "203.0.159.210")).2) := by
  unfold fullWindowEvents
  have calm : banStores.threatStage < 2 := by decide
  rcases fillsWindow_windowAddresses.leastRecent calm with ⟨full, least, banned⟩
  rw [freshFor_and_retainsBans_iff (emptyPristine_mapRun _)]
  intro victimClean
  have notBanned := (victimClean (by decide) (by decide) full _ least).1
  exact absurd (banned.symm.trans notBanned) (by decide)

end LogGuardian
