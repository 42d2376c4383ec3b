import LogGuardian.Ban.Recorded
import LogGuardian.Ban.World
import LogGuardian.IpMap.Freshness

/-!
# Bans at startup
-/

namespace LogGuardian

open List

universe u

inductive BanAction where
  | ban
  | unban
  deriving DecidableEq, Repr

/-- The text that callers of `db_log_ban_event` pass. -/
def BanAction.text : BanAction → Bytes
  | .ban => ascii "BAN"
  | .unban => ascii "UNBAN"

/-- A call of `db_log_ban_event`. -/
structure BanEvent extends BanRow where
  action : BanAction
  deriving DecidableEq, Repr

structure BanEventRow where
  id : ℕ
  ts : ℤ
  ip : Bytes
  action : Bytes
  reason : Bytes
  deriving DecidableEq, Repr

/-- The table with the sequence of its `AUTOINCREMENT` key. -/
structure BanTable where
  seq : ℕ := 0
  rows : List BanEventRow := []
  deriving DecidableEq, Repr

def dbLogBanEvent (table : BanTable) (event : BanEvent) : BanTable where
  seq := table.seq + 1
  rows := table.rows ++ [⟨table.seq + 1, event.ts, event.ip, event.action.text, event.reason⟩]

/-- `UPPER` of SQLite. -/
def sqlUpper (text : Bytes) : Bytes :=
  text.map fun byte => if 97 ≤ byte && byte ≤ 122 then byte - 32 else byte

/-- `MAX(id)` of the group of an address. -/
def BanTable.maxId (table : BanTable) (ip : Bytes) : ℕ :=
  ((table.rows.filter (·.ip = ip)).map (·.id)).foldl max 0

/-- The query of `db_load_previous_bans`. -/
def selectPreviousBans (table : BanTable) : List Bytes :=
  (table.rows.filter fun row =>
    row.id = table.maxId row.ip ∧ sqlUpper row.action = ascii "BAN").map (·.ip)

/-- The query of `db_sync_xdp_bans`. -/
def selectXdpBans (table : BanTable) : List Bytes :=
  ((table.rows.filter (·.action = ascii "ban")).map (·.ip)).dedup

/-- The loop body of `db_load_previous_bans`. -/
def markPreviousBan (now : ℤ) (map : IpMap) (ip : Bytes) : IpMap :=
  match ipmapGetOrCreate map ip with
  | (some slot, created) =>
    if (created.slots slot).banned then created
    else
      created.setRecord slot
        { created.slots slot with banned := true, banUntilTs := now + 86400 }
  | (none, created) => created

def dbLoadPreviousBans (now : ℤ) (table : BanTable) (map : IpMap) : IpMap :=
  (selectPreviousBans table).foldl (markPreviousBan now) map

/-- The loop of `db_sync_xdp_bans`: the addresses whose update succeeded, and the maps. -/
def syncXdpBans {State : Type u} (layers : Layers State) : List Bytes → State → List Bytes × State
  | [], state => ([], state)
  | ip :: rest, state =>
    let attempt := tryXdpBan layers ip state
    let later := syncXdpBans layers rest attempt.state
    (if attempt.ok then ip :: later.1 else later.1, later.2)

def dbSyncXdpBans {State : Type u} (layers : Layers State) (table : BanTable) (state : State) :
    List Bytes × State :=
  if layers.xdpActive state then syncXdpBans layers (selectXdpBans table) state else ([], state)

def MarkedBanned (map : IpMap) (ip : Bytes) : Prop :=
  ∃ slot, map.keys slot = some ip ∧ (map.slots slot).banned = true

def banTable (history : List BanEvent) : BanTable := Machine.run dbLogBanEvent {} history

/-- The latest event of the address is a ban. -/
def LatestIsBan (history : List BanEvent) (ip : Bytes) : Prop :=
  (history.filter (·.ip = ip)).getLast?.map (·.action) = some .ban

instance (history : List BanEvent) (ip : Bytes) : Decidable (LatestIsBan history ip) := by
  unfold LatestIsBan
  infer_instance

theorem banTable_concat (history : List BanEvent) (event : BanEvent) :
    banTable (history ++ [event]) = dbLogBanEvent (banTable history) event :=
  Machine.run_append _ history [event]

theorem latestIsBan_concat (history : List BanEvent) (event : BanEvent) (ip : Bytes) :
    LatestIsBan (history ++ [event]) ip ↔
      if event.ip = ip then event.action = .ban else LatestIsBan history ip := by
  unfold LatestIsBan
  by_cases same : event.ip = ip
  · simp [same]
  · simp [same]

/-- Keys are given out in order. -/
def BanTable.Ordered (table : BanTable) : Prop := ∀ row ∈ table.rows, row.id ≤ table.seq

variable {table : BanTable}

theorem ordered_dbLogBanEvent (ordered : table.Ordered) (event : BanEvent) :
    (dbLogBanEvent table event).Ordered := by
  intro row mem
  simp only [dbLogBanEvent, mem_append, mem_singleton] at mem ⊢
  rcases mem with old | rfl
  · have := ordered row old
    omega
  · exact Nat.le_refl _

theorem ordered_banTable (history : List BanEvent) : (banTable history).Ordered :=
  Machine.run_invariant BanTable.Ordered (fun _ event ordered => ordered_dbLogBanEvent ordered event)
    (fun _ mem => absurd mem not_mem_nil) history

theorem maxId_le (ordered : table.Ordered) (ip : Bytes) :
    table.maxId ip ≤ table.seq := by
  rw [BanTable.maxId, foldl_eq_foldr]
  apply max_le_of_forall_le
  intro id mem
  rcases List.mem_map.mp mem with ⟨row, filtered, rfl⟩
  exact ordered row (mem_of_mem_filter filtered)

theorem maxId_dbLogBanEvent (ordered : table.Ordered) (event : BanEvent) (ip : Bytes) :
    (dbLogBanEvent table event).maxId ip =
      if event.ip = ip then table.seq + 1 else table.maxId ip := by
  have bounded := maxId_le ordered ip
  unfold BanTable.maxId at bounded ⊢
  rw [dbLogBanEvent, filter_append]
  by_cases same : event.ip = ip
  · simp only [same, if_true, decide_true, filter_cons_of_pos, filter_nil,
      map_append, map_cons, map_nil, foldl_append, foldl_cons,
      foldl_nil]
    omega
  · simp [same]

theorem mem_selectPreviousBans {ip : Bytes} :
    ip ∈ selectPreviousBans table ↔
      ∃ row ∈ table.rows, row.ip = ip ∧ row.id = table.maxId ip ∧
        sqlUpper row.action = ascii "BAN" := by
  simp only [selectPreviousBans, mem_map, mem_filter, decide_eq_true_eq]
  constructor
  · rintro ⟨row, ⟨mem, latest, banned⟩, rfl⟩
    exact ⟨row, mem, rfl, latest, banned⟩
  · rintro ⟨row, mem, rfl, latest, banned⟩
    exact ⟨row, ⟨mem, latest, banned⟩, rfl⟩

theorem sqlUpper_text (action : BanAction) : sqlUpper action.text = ascii "BAN" ↔ action = .ban := by
  cases action <;> decide

theorem text_ne_ban (action : BanAction) : action.text ≠ ascii "ban" := by
  cases action <;> decide

theorem selectPreviousBans_dbLogBanEvent (ordered : table.Ordered) (event : BanEvent) (ip : Bytes) :
    ip ∈ selectPreviousBans (dbLogBanEvent table event) ↔
      if event.ip = ip then event.action = .ban else ip ∈ selectPreviousBans table := by
  rw [mem_selectPreviousBans, maxId_dbLogBanEvent ordered]
  simp only [dbLogBanEvent, mem_append, mem_singleton, or_and_right, exists_or,
    exists_eq_left, sqlUpper_text]
  split_ifs with same
  · -- The new row has the greatest key of its group.
    constructor
    · rintro (⟨row, old, -, latest, -⟩ | ⟨-, -, banned⟩)
      · have := ordered row old
        omega
      · exact banned
    · intro banned
      exact Or.inr ⟨same, rfl, banned⟩
  · rw [mem_selectPreviousBans]
    simp [same]

theorem mem_selectPreviousBans_iff (history : List BanEvent) (ip : Bytes) :
    ip ∈ selectPreviousBans (banTable history) ↔ LatestIsBan history ip := by
  induction history using reverseRecOn with
  | nil => simp [selectPreviousBans, banTable, Machine.run, LatestIsBan]
  | append_singleton history event ih =>
    rw [banTable_concat, selectPreviousBans_dbLogBanEvent (ordered_banTable history),
      latestIsBan_concat, ih]

theorem selectXdpBans_banTable (history : List BanEvent) : selectXdpBans (banTable history) = [] := by
  have written : ∀ row ∈ (banTable history).rows, row.action ≠ ascii "ban" := by
    apply Machine.run_invariant (fun table : BanTable => ∀ row ∈ table.rows, row.action ≠ ascii "ban")
    · intro table event others row mem
      simp only [dbLogBanEvent, mem_append, mem_singleton] at mem
      rcases mem with old | rfl
      · exact others row old
      · exact text_ne_ban event.action
    · intro row mem
      exact absurd mem not_mem_nil
  rw [selectXdpBans, List.filter_eq_nil_iff.mpr, map_nil, dedup_nil]
  intro row mem
  simpa using written row mem

theorem dbSyncXdpBans_banTable {State : Type u} (layers : Layers State) (history : List BanEvent)
    (state : State) : (dbSyncXdpBans layers (banTable history) state).1 = [] := by
  rw [dbSyncXdpBans, selectXdpBans_banTable]
  split <;> rfl

theorem boot_bans_agree_iff {State : Type u} (layers : Layers State) (state : State) (now : ℤ)
    (history : List BanEvent) :
    (∀ ip,
        (ip ∈ (dbSyncXdpBans layers (banTable history) state).1 ↔
          MarkedBanned (dbLoadPreviousBans now (banTable history) ipmapInit) ip) ∧
        (MarkedBanned (dbLoadPreviousBans now (banTable history) ipmapInit) ip ↔
          LatestIsBan history ip)) ↔
      ∀ ip, ¬LatestIsBan history ip := by
  rw [dbSyncXdpBans_banTable]
  constructor
  · intro agree ip banned
    rcases agree ip with ⟨synced, marked⟩
    exact absurd (synced.mpr (marked.mpr banned)) not_mem_nil
  · intro none ip
    have selected : selectPreviousBans (banTable history) = [] := by
      apply List.eq_nil_iff_forall_not_mem.mpr
      intro other
      rw [mem_selectPreviousBans_iff]
      exact none other
    have unmarked : ¬MarkedBanned (dbLoadPreviousBans now (banTable history) ipmapInit) ip := by
      rw [dbLoadPreviousBans, selected]
      rintro ⟨slot, -, banned⟩
      cases banned
    simp [unmarked, none ip]

/-- One ban is marked in the IP map and not loaded into the XDP maps. -/
theorem boot_ban_not_synced :
    LatestIsBan [⟨⟨ascii "198.51.100.7", ascii "RISK", 1000⟩, .ban⟩] (ascii "198.51.100.7") ∧
      MarkedBanned (dbLoadPreviousBans 2000
        (banTable [⟨⟨ascii "198.51.100.7", ascii "RISK", 1000⟩, .ban⟩]) ipmapInit)
        (ascii "198.51.100.7") ∧
      (dbSyncXdpBans worldLayers
        (banTable [⟨⟨ascii "198.51.100.7", ascii "RISK", 1000⟩, .ban⟩])
        { env := { xdpActive := true, localV4 := true } }).1 = [] := by
  refine ⟨by decide +kernel, ?_, dbSyncXdpBans_banTable _ _ _⟩
  have selected : selectPreviousBans
      (banTable [⟨⟨ascii "198.51.100.7", ascii "RISK", 1000⟩, .ban⟩]) =
        [ascii "198.51.100.7"] := by
    decide +kernel
  have home : LinearProbe.probe homeSlot maxProbeLen ipmapInit.keys (ascii "198.51.100.7") =
      some (homeSlot (ascii "198.51.100.7")) := probe_of_vacant_home rfl
  have created := ipmapGetOrCreate_of_free (by decide) (by decide) home rfl
  refine ⟨homeSlot (ascii "198.51.100.7"), ?_⟩
  rw [dbLoadPreviousBans, selected, foldl_cons, markPreviousBan, created]
  simp [IpMap.keys, ipmapInit]

end LogGuardian
